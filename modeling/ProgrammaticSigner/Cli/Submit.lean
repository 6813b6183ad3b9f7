import ProgrammaticSigner.Cli.ExecuteAccounts
import ProgrammaticSigner.Cli.Sign

set_option autoImplicit false

/- `transaction submit`: check what was signed, build the relay transaction, and sign,
print, simulate or send it. -/
namespace ProgrammaticSigner

open Outcome

variable {P : Platform}

structure SubmitCommand (P : Platform) where
  authorizationMessage : Text
  signers : List Text
  relaySigner : List P.SignerSource
  relaySignature : List Text
  durableNonce : Option P.Address
  durableNonceAuthority : Option P.SignerSource
  blockhash : Option P.Hash
  signOnly : Bool
  dumpTransactionMessage : Bool
  dryRun : Bool
  yes : Bool
  /-- What the argument parser requires of its options. -/
  relaySignature_requires : relaySignature ≠ [] → blockhash.isSome = true
  durableNonceAuthority_requires : durableNonceAuthority.isSome = true → durableNonce.isSome = true
  signOnly_requires : signOnly = true → blockhash.isSome = true
  dumpTransactionMessage_requires : dumpTransactionMessage = true → signOnly = true
  dryRun_conflicts : dryRun = true → signOnly = false

/-- How far a run gets with its relay transaction. -/
inductive SubmitStage (P : Platform) where
  | simulates (transaction : P.Transaction)
  | prints (transaction : P.Transaction)
  | sends (transaction : P.Transaction) (nonceAccount : P.Address)

inductive SubmitOutput (P : Platform) where
  /-- The node's account of a dry run is left out. -/
  | simulated (transaction : P.Transaction)
  | signOnly (relayMessageHash : Text) (data : CliSignOnlyData)
  | submitted (signature : Text)

/-- The relay signers of a run: their addresses, and the keys loaded for them. -/
structure LoadedSigners (P : Platform) where
  feePayer : P.Address
  durableNonce : Option (P.Address × P.Address)
  signers : List (P.Address × P.LocalSigner)

/-- A run that is about to sign. -/
structure PreparedRelay (P : Platform) where
  message : P.Message
  execute : ExecuteAccounts P
  authoritySignatures : List (P.Address × P.Signature)
  signers : List (P.Address × P.LocalSigner)
  transaction : P.Transaction
  placed : List (Nat × P.Signature)

/-- The signatures that `Submit` carries, one slot for each required signer. -/
def authoritySlots (message : P.Message) (authoritySignatures : List (P.Address × P.Signature)) :
    List (Option P.Signature) :=
  message.signerKeys.map fun address => authoritySignatures.lookup address

namespace Submit

/-- A `BTreeMap` is its entries in order of their keys. -/
def insertEntry (address : P.Address) (signature : P.Signature) :
    List (P.Address × P.Signature) → List (P.Address × P.Signature)
  | [] => [(address, signature)]
  | (key, value) :: rest =>
      if address < key then (address, signature) :: (key, value) :: rest
      else if address = key then (address, signature) :: rest
      else (key, value) :: insertEntry address signature rest

/-- Of two entries for one address, the later one stays. -/
def collectEntries (entries : List (P.Address × P.Signature)) : List (P.Address × P.Signature) :=
  entries.foldl (fun map entry => insertEntry entry.1 entry.2 map) []

/-- Load and add a relay signer. An address source only gives the address. -/
def loadRelaySigner (client : Client P) (relaySigners : List (P.Address × P.LocalSigner))
    (source : P.SignerSource) (name : String) (allowNullSigner : Bool) :
    Except Failure (P.Address × List (P.Address × P.LocalSigner)) := do
  let signer ← client.loadSigner source name allowNullSigner
  let address ← signer.tryPubkey
  return (address, match source with
    | .pubkey _ => relaySigners
    | .other _ => Sign.addSigner relaySigners address signer)

/-- An address alone will do where the run needs no signature, or is given one. -/
def allowNullSigner (command : SubmitCommand P)
    (relaySignatures : List (P.Address × P.Signature)) (source : P.SignerSource) : Bool :=
  command.signOnly || command.dryRun || match source with
    | .pubkey address => (relaySignatures.lookup address).isSome
    | .other _ => false

/-- The relay transaction's signers among the required ones: those the executor uses, and
required relay signers that did not sign the authorization message. -/
def submitSigners (execute : ExecuteAccounts P) (requiredSigners : List P.Address)
    (authoritySignatures : List (P.Address × P.Signature)) : List P.Address :=
  requiredSigners.filter fun address => execute.isExecutorSigner address ||
    execute.isRequiredRelaySigner address && (authoritySignatures.lookup address).isNone

/-- The relay signature of a required signer is here, will be, or is not needed. -/
def signsRelay (command : SubmitCommand P) (requiredSigners : List P.Address)
    (relaySignatures : List (P.Address × P.Signature))
    (relaySigners : List (P.Address × P.LocalSigner)) (address : P.Address) : Bool :=
  (relaySigners.filter fun entry => entry.1 ∈ requiredSigners).any
      (fun entry => entry.1 == address) ||
    (relaySignatures.lookup address).isSome || command.signOnly || command.dryRun

variable (K : Toolkit P)

/-- Parse an `ADDRESS=SIGNATURE` pair, naming it in errors. -/
def parseSignatureEntry (entry : Text) (kind : String) :
    Except Failure (P.Address × P.Signature) := do
  let parts ← okOr (splitOnce '=' entry) [s!"invalid {kind}: expected ADDRESS=SIGNATURE"]
  let address ← context s!"invalid {kind} address" (K.parseAddress parts.1)
  let signature ← context s!"invalid {kind} signature" (K.parseSignature parts.2)
  return (address, signature)

/-- Each entry must be a signature over the message by an authority or a required relay
signer. -/
def verifyAuthoritySignatures (message : P.Message) (execute : ExecuteAccounts P) :
    List Text → List (P.Address × P.Signature) → Except Failure (List (P.Address × P.Signature))
  | [], signatures => .ok signatures
  | entry :: rest, signatures => do
      let (address, signature) ← parseSignatureEntry K entry "authority"
      ensure (address ∈ message.signerKeys)
        [s!"{K.display address} is not a signer on the authorization message"]
      ensure (execute.isPdaAuthority address || execute.isRequiredRelaySigner address)
        [s!"{K.display address} is not a PDA authority or required relay signer on the " ++
          "authorization message; pass it with --relay-signer"]
      ensure (K.verify address signature (Platform.serializeV1 message))
        [s!"invalid signature for authority {K.display address}"]
      verifyAuthoritySignatures message execute rest (insertEntry address signature signatures)

/-- The loop over `--relay-signer`. -/
def loadRelaySigners (client : Client P) (execute : ExecuteAccounts P)
    (requiredSigners : List P.Address) :
    List P.SignerSource → List (P.Address × P.LocalSigner) →
      Except Failure (List (P.Address × P.LocalSigner))
  | [], relaySigners => .ok relaySigners
  | source :: rest, relaySigners => do
      let signer ← client.loadSigner source "relay signer" false
      let address ← signer.tryPubkey
      ensure (address ∈ requiredSigners ∧
          (execute.isExecutorSigner address || execute.isRequiredRelaySigner address))
        [s!"{K.display address} is not a forwarded or required relay signer on the " ++
          "authorization message" ++ if execute.isPdaAuthority address
            then ", PDA authorities sign with `transaction sign`" else ""]
      loadRelaySigners client execute requiredSigners rest
        (Sign.addSigner relaySigners address signer)

/-- The durable nonce's authority, which the fee payer is by default. -/
def loadDurableNonce (command : SubmitCommand P) (client : Client P)
    (relaySignatures : List (P.Address × P.Signature)) (feePayer : P.Address)
    (relaySigners : List (P.Address × P.LocalSigner)) :
    Except Failure (Option (P.Address × P.Address) × List (P.Address × P.LocalSigner)) :=
  match command.durableNonce with
  | none => .ok (none, relaySigners)
  | some address => match command.durableNonceAuthority with
    | none => .ok (some (address, feePayer), relaySigners)
    | some source => do
        let (authority, relaySigners) ← loadRelaySigner client relaySigners source
          "durable nonce authority" (allowNullSigner command relaySignatures source)
        return (some (address, authority), relaySigners)

/-- The fee payer, the durable nonce authority and the relay signers, in this order. -/
def loadSigners (command : SubmitCommand P) (client : Client P) (execute : ExecuteAccounts P)
    (requiredSigners : List P.Address) (relaySignatures : List (P.Address × P.Signature)) :
    Except Failure (LoadedSigners P) := do
  let source ← client.feePayerSource
  let (feePayer, signers) ← loadRelaySigner client [] source "fee payer"
    (allowNullSigner command relaySignatures source)
  let (durableNonce, signers) ← loadDurableNonce command client relaySignatures feePayer signers
  let signers ← loadRelaySigners K client execute requiredSigners command.relaySigner signers
  forM signers fun entry => ensure ((relaySignatures.lookup entry.1).isNone)
    [s!"{K.display entry.1} has both a local signer and a --relay-signature"]
  return ⟨feePayer, durableNonce, signers⟩

/-- A required signer must have approved, or be about to. -/
def checkRequiredSigner (execute : ExecuteAccounts P)
    (authoritySignatures : List (P.Address × P.Signature)) (signsRelay : P.Address → Bool)
    (dryRun : Bool) (address : P.Address) : Except Failure Unit := do
  ensure (!execute.isRequiredRelaySigner address ||
      (authoritySignatures.lookup address).isSome || signsRelay address)
    [s!"{K.display address} is a required relay signer and must sign the relay transaction or " ++
      "the authorization message; pass it with --relay-signer, --relay-signature, or --signer"]
  ensure (!execute.isPdaAuthority address || (authoritySignatures.lookup address).isSome)
    [s!"missing signature for authority {K.display address}, authorities sign with " ++
      "`transaction sign`" ++ if dryRun
        then ". A dry run still needs authority signatures, since Submit checks them on-chain. " ++
          "To check the execution message before it is signed, use `transaction simulate`"
        else ""]
  ensure (!execute.isExecutorSigner address || signsRelay address)
    [s!"{K.display address} is a forwarded signer and must sign the relay transaction; pass it " ++
      "with --relay-signer or --relay-signature"]

/-- The nonce account still has the value and authority that the message uses. -/
def checkExecutionNonce (client : Client P) (execute : ExecuteAccounts P) :
    Except Failure Unit := do
  let nonce ← client.nonceAccount execute.nonceAccount
  ensure (nonce.nonce = execute.expectedNonce)
    [s!"authorization message uses nonce value {K.displayHash execute.expectedNonce}, but nonce " ++
      s!"account {K.display execute.nonceAccount} currently has {K.displayHash nonce.nonce}"]
  ensure (nonce.authority = execute.nonceAuthority)
    [s!"authorization message uses nonce authority {K.display execute.nonceAuthority}, but nonce " ++
      s!"account {K.display execute.nonceAccount} has authority {K.display nonce.authority}"]

/-- The value of the durable nonce. Without an expected value, any value is used. -/
def checkDurableNonce (client : Client P) (address authority : P.Address)
    (expectedValue : Option P.Hash) : Except Failure P.Hash := do
  let durableNonce ← client.durableNonceAccount address
  let value := durableNonce.blockhash
  let expected := expectedValue.getD value
  ensure (value = expected)
    [s!"relay transaction uses durable nonce value {K.displayHash expected}, but durable nonce " ++
      s!"account {K.display address} currently has {K.displayHash value}"]
  ensure (durableNonce.authority = authority)
    [s!"relay transaction uses durable nonce authority {K.display authority}, but durable nonce " ++
      s!"account {K.display address} has authority {K.display durableNonce.authority}"]
  return value

/-- The relay transaction's blockhash. A sign-only run asks no node for it. -/
def liveBlockhash (command : SubmitCommand P) (client : Client P) (execute : ExecuteAccounts P)
    (durableNonce : Option (P.Address × P.Address)) : Except Failure P.Hash :=
  if offline : command.signOnly = true then
    .ok (command.blockhash.get (command.signOnly_requires offline))
  else do
    checkExecutionNonce K client execute
    match durableNonce with
    | some (address, authority) => checkDurableNonce K client address authority command.blockhash
    | none => match command.blockhash with
      | some blockhash => pure blockhash
      | none => client.latestBlockhash

/-- Build the relay transaction, which is the same in every run on the same arguments. -/
def buildRelay (message : P.Message) (execute : ExecuteAccounts P)
    (authoritySignatures : List (P.Address × P.Signature)) (feePayer : P.Address)
    (durableNonce : Option (P.Address × P.Address)) (blockhash : P.Hash) :
    Except Failure P.Transaction := do
  let requiredSigners := message.signerKeys
  let transaction ← V1Transaction.relayTransaction K message
    (authoritySlots message authoritySignatures)
    (submitSigners execute requiredSigners authoritySignatures) feePayer durableNonce blockhash
  V1Transaction.ensureTransactionSize K "relay transaction" transaction
  return transaction

/-- A relay signature must be for this exact transaction. -/
def placeRelaySignature (transaction : P.Transaction) (messageData : List UInt8)
    (entry : P.Address × P.Signature) : Except Failure (Nat × P.Signature) := do
  let index ← okOr (V1Transaction.signerIndex transaction entry.1)
    [s!"{K.display entry.1} is not a relay transaction signer"]
  ensure (K.verify entry.1 entry.2 messageData)
    [s!"invalid relay signature for {K.display entry.1}, check its --sign-only run used the same " ++
      "arguments"]
  return (index, entry.2)

/-- The run up to a relay transaction that its relay signatures fit. -/
def prepare (command : SubmitCommand P) (client : Client P) :
    Except Failure (PreparedRelay P) := do
  let message ← Decode.readAuthorizationMessage K command.authorizationMessage
  let execute ← ExecuteAccounts.tryNew K message
  let requiredSigners := message.signerKeys
  let authoritySignatures ← verifyAuthoritySignatures K message execute command.signers []
  let entries ← command.relaySignature.mapM fun entry =>
    parseSignatureEntry K entry "relay signature"
  let relaySignatures := collectEntries entries
  let loaded ← loadSigners K command client execute requiredSigners relaySignatures
  forM requiredSigners (checkRequiredSigner K execute authoritySignatures
    (signsRelay command requiredSigners relaySignatures loaded.signers) command.dryRun)
  let blockhash ← liveBlockhash K command client execute loaded.durableNonce
  let transaction ← buildRelay K message execute authoritySignatures loaded.feePayer
    loaded.durableNonce blockhash
  let placed ← relaySignatures.mapM
    (placeRelaySignature K transaction (Platform.serializeV1 transaction.message))
  return ⟨message, execute, authoritySignatures, loaded.signers, transaction, placed⟩

/-- Someone reviews the message here: a signer the executor uses, or a required relay signer
that did not sign the authorization message. -/
def needsReview (prepared : PreparedRelay P) : Bool :=
  let requiredSigners := prepared.message.signerKeys
  requiredSigners.any prepared.execute.isExecutorSigner || requiredSigners.any fun address =>
    prepared.execute.isRequiredRelaySigner address &&
      (prepared.authoritySignatures.lookup address).isNone

/-- Local signers that are on the authorization message, and the others. -/
def authorizationSigners (prepared : PreparedRelay P) : List (P.Address × P.LocalSigner) :=
  prepared.signers.filter fun entry => entry.1 ∈ prepared.message.signerKeys

def relayOnlySigners (prepared : PreparedRelay P) : List (P.Address × P.LocalSigner) :=
  prepared.signers.filter fun entry => entry.1 ∉ prepared.message.signerKeys

def review (command : SubmitCommand P) (client : Client P) (prepared : PreparedRelay P) :
    Except Failure Unit :=
  if needsReview prepared then
    Summary.confirmSigning client (authorizationSigners prepared) command.yes
  else .ok ()

/-- Once reviewed, the slots of signers that signed elsewhere are filled, then the local
signers sign. -/
def sign (command : SubmitCommand P) (client : Client P) (prepared : PreparedRelay P) :
    Except Failure P.Transaction := do
  review command client prepared
  context "failed to sign relay transaction" (V1Transaction.tryPartialSign K
    (V1Transaction.fillSlots prepared.transaction prepared.placed)
    (Platform.serializeV1 prepared.transaction.message)
    ((authorizationSigners prepared ++ relayOnlySigners prepared).map Prod.snd))

/-- What the run does with its relay transaction. Every signature must be there before it is
sent. -/
def finish (command : SubmitCommand P) (client : Client P) (prepared : PreparedRelay P) :
    Except Failure (SubmitStage P) :=
  if command.dryRun then .ok (.simulates prepared.transaction)
  else do
    let signed ← sign K command client prepared
    if command.signOnly then return .prints signed
    else
      match (K.verifyWithResults signed).idxOf? false with
      | some index => .error ["relay transaction is missing a valid signature for " ++
          K.display (signed.message.accountKeys.getD index default)]
      | none => return .sends signed prepared.execute.nonceAccount

def relay (command : SubmitCommand P) (client : Client P) : Except Failure (SubmitStage P) := do
  let prepared ← prepare K command client
  finish K command client prepared

/-- How to invalidate the message, after the causes of an error. -/
def withInvalidationHint (failure : Failure) (nonceAccount : P.Address) : Failure :=
  [s!"{K.describeFailure failure}\n\nIf the relay transaction did not land, the authorization " ++
    s!"message can still be submitted until nonce account {K.display nonceAccount} advances. To " ++
    s!"invalidate it, run `nonce advance {K.display nonceAccount}` with its nonce authority."]

def run (command : SubmitCommand P) (client : Client P) : Except Failure (SubmitOutput P) := do
  match ← relay K command client with
  | .simulates transaction => return .simulated transaction
  | .prints transaction =>
      let messageData := Platform.serializeV1 transaction.message
      return .signOnly (K.showHash (K.hashRawMessage messageData))
        (V1Transaction.returnSignersData K transaction messageData
          command.dumpTransactionMessage)
  | .sends transaction nonceAccount => do
      let signature ← (context
        ("relay transaction " ++
          String.ofList (K.showSignature (transaction.signatures.headD default)))
        (client.sendAndConfirmTransaction transaction)).mapError
          fun failure => withInvalidationHint K failure nonceAccount
      return .submitted signature

/-- What a run found on its way to building its relay transaction. -/
structure Builds (command : SubmitCommand P) (client : Client P) (prepared : PreparedRelay P)
    (relaySignatures : List (P.Address × P.Signature)) (loaded : LoadedSigners P)
    (blockhash : P.Hash) : Prop where
  read : Decode.readAuthorizationMessage K command.authorizationMessage = .ok prepared.message
  taken : ExecuteAccounts.tryNew K prepared.message = .ok prepared.execute
  verified : verifyAuthoritySignatures K prepared.message prepared.execute command.signers [] =
    .ok prepared.authoritySignatures
  collected : ∃ entries, command.relaySignature.mapM (fun entry =>
    parseSignatureEntry K entry "relay signature") = .ok entries ∧
    collectEntries entries = relaySignatures
  loads : loadSigners K command client prepared.execute prepared.message.signerKeys
    relaySignatures = .ok loaded
  signers : loaded.signers = prepared.signers
  checked : forM prepared.message.signerKeys (checkRequiredSigner K prepared.execute
    prepared.authoritySignatures (signsRelay command prepared.message.signerKeys relaySignatures
      loaded.signers) command.dryRun) = .ok ()
  live : liveBlockhash K command client prepared.execute loaded.durableNonce = .ok blockhash
  built : buildRelay K prepared.message prepared.execute prepared.authoritySignatures
    loaded.feePayer loaded.durableNonce blockhash = .ok prepared.transaction

/-- A run that built its relay transaction, and placed the relay signatures it was passed. -/
structure Prepares (command : SubmitCommand P) (client : Client P) (prepared : PreparedRelay P)
    (relaySignatures : List (P.Address × P.Signature)) (loaded : LoadedSigners P)
    (blockhash : P.Hash) : Prop
    extends Builds K command client prepared relaySignatures loaded blockhash where
  places : relaySignatures.mapM (placeRelaySignature K prepared.transaction
    (Platform.serializeV1 prepared.transaction.message)) = .ok prepared.placed

theorem prepare_ok_iff {command : SubmitCommand P} {client : Client P}
    {prepared : PreparedRelay P} :
    prepare K command client = .ok prepared ↔ ∃ relaySignatures loaded blockhash,
      Prepares K command client prepared relaySignatures loaded blockhash := by
  simp only [prepare, bind_ok_iff, pure_ok_iff]
  constructor
  · intro found
    obtain ⟨message, read, execute, taken, authoritySignatures, verified, entries, parsed, loaded,
      loads, _, checked, blockhash, live, transaction, built, placed, places, same⟩ := found
    rw [← same]
    exact ⟨_, loaded, blockhash, ⟨read, taken, verified, ⟨entries, parsed, rfl⟩, loads, rfl,
      checked, live, built⟩, places⟩
  · intro found
    obtain ⟨relaySignatures, loaded, blockhash, found⟩ := found
    obtain ⟨entries, parsed, rfl⟩ := found.collected
    refine ⟨_, found.read, _, found.taken, _, found.verified, entries, parsed, loaded, found.loads,
      (), found.checked, blockhash, found.live, _, found.built, _, found.places, ?_⟩
    rw [found.signers]

/-- The local signers are these two groups together. -/
theorem mem_localSigners (prepared : PreparedRelay P) (entry : P.Address × P.LocalSigner) :
    entry ∈ authorizationSigners prepared ++ relayOnlySigners prepared ↔
      entry ∈ prepared.signers := by
  rw [List.mem_append, authorizationSigners, relayOnlySigners, List.mem_filter, List.mem_filter,
    ← and_or_left, decide_eq_true_eq, decide_eq_true_eq]
  exact and_iff_left (Classical.em _)

section Entries

variable {entries map : List (P.Address × P.Signature)} {address other : P.Address}
  {signature : P.Signature} {entry : P.Address × P.Signature}

theorem mem_insertEntry (member : entry ∈ insertEntry address signature map) :
    entry = (address, signature) ∨ entry ∈ map := by
  fun_induction insertEntry address signature map with grind

/-- An insertion changes what is found at its own address, and nowhere else. -/
theorem lookup_insertEntry :
    (insertEntry address signature map).lookup other =
      if other = address then some signature else map.lookup other := by
  fun_induction insertEntry address signature map with grind

theorem foldl_insertEntry :
    (∀ entry ∈ entries.foldl (fun map entry => insertEntry entry.1 entry.2 map) map,
      entry ∈ entries ∨ entry ∈ map) ∧
    ∀ address, ((entries.foldl (fun map entry => insertEntry entry.1 entry.2 map) map).lookup
      address).isSome = true ↔ (∃ entry ∈ entries, entry.1 = address) ∨
        (map.lookup address).isSome = true := by
  induction entries generalizing map with
  | nil => simp
  | cons first rest ih =>
      have later := @ih (insertEntry first.1 first.2 map)
      rw [List.foldl_cons]
      constructor
      · intro entry member
        rcases later.1 entry member with listed | inserted
        · exact .inl (List.mem_cons_of_mem _ listed)
        · rcases mem_insertEntry inserted with same | kept
          · exact .inl (same ▸ List.mem_cons_self)
          · exact .inr kept
      · intro address
        rw [later.2 address, lookup_insertEntry, List.exists_mem_cons_iff]
        by_cases same : address = first.1
        · simp [same]
        · simp [same, Ne.symm same]

/-- Collected entries are among those given, and every given address is found. -/
theorem mem_collectEntries (member : entry ∈ collectEntries entries) : entry ∈ entries := by
  rcases foldl_insertEntry.1 entry member with listed | listed
  · exact listed
  · cases listed

theorem lookup_collectEntries :
    ((collectEntries entries).lookup address).isSome = true ↔
      ∃ entry ∈ entries, entry.1 = address := by
  rw [collectEntries, foldl_insertEntry.2]
  simp

end Entries

end Submit

end ProgrammaticSigner
