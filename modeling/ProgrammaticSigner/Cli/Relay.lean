import ProgrammaticSigner.Cli.Approval

set_option autoImplicit false

/- Relay signing spread over several runs: what the runs share decides the relay message,
and what each one signs fits the others. -/
namespace ProgrammaticSigner

open Outcome V1Transaction

variable {P : Platform}

/-- The arguments that every run shares. -/
structure Submission (P : Platform) where
  authorizationMessage : Text
  signers : List Text
  feePayer : P.Address
  durableNonce : Option (P.Address × P.Address)
  blockhash : P.Hash

/-- What the shared arguments settle. -/
structure RelayPlan (P : Platform) where
  message : P.Message
  execute : ExecuteAccounts P
  authoritySignatures : List (P.Address × P.Signature)
  transaction : P.Transaction

/-- The signers whose `Submit` accounts the relay transaction marks. -/
def RelayPlan.submitSigners (plan : RelayPlan P) : List P.Address :=
  Submit.submitSigners plan.execute plan.message.signerKeys plan.authoritySignatures

/-- A source stands for one address, however it loads. -/
def SourceOf (client : Client P) (source : P.SignerSource) (address : P.Address) : Prop :=
  ∀ name allowNullSigner signer found,
    client.loadSigner source name allowNullSigner = .ok signer →
    signer.tryPubkey = .ok found → found = address

section Runs

variable (K : Toolkit P)

/-- A key signs what verifies under its address. An address alone loads where it is allowed,
without one. -/
structure Client.SignerLaws (client : Client P) : Prop where
  verifies : ∀ source name allowNullSigner signer,
    client.loadSigner source name allowNullSigner = .ok signer →
    (allowNullSigner = false ∨ ∃ path, source = .other path) → Verifies K signer
  addresses : ∀ address name, ∃ signer,
    client.loadSigner (.pubkey address) name true = .ok signer ∧ signer.tryPubkey = .ok address

namespace Submission

variable (shared : Submission P)

/-- A run on the shared arguments. Which signers are local, are addresses or signed elsewhere is
its own. -/
structure Runs (command : SubmitCommand P) (client : Client P) : Prop where
  authorizationMessage : command.authorizationMessage = shared.authorizationMessage
  signers : command.signers = shared.signers
  feePayer : ∀ source, client.feePayerSource = .ok source →
    SourceOf client source shared.feePayer
  durableNonce : command.durableNonce = shared.durableNonce.map Prod.fst
  authority : ∀ address authority, shared.durableNonce = some (address, authority) →
    command.durableNonceAuthority.elim (authority = shared.feePayer)
      fun source => SourceOf client source authority
  blockhash : command.blockhash = some shared.blockhash
  laws : client.SignerLaws K

/-- The relay transaction of the shared arguments, not yet signed. -/
def plan : Except Failure (RelayPlan P) := do
  let message ← Decode.readAuthorizationMessage K shared.authorizationMessage
  let execute ← ExecuteAccounts.tryNew K message
  let authoritySignatures ← Submit.verifyAuthoritySignatures K message execute shared.signers []
  let transaction ← Submit.buildRelay K message execute authoritySignatures shared.feePayer
    shared.durableNonce shared.blockhash
  return ⟨message, execute, authoritySignatures, transaction⟩

/-- The shared arguments build a relay transaction and hold every authority's signature. -/
structure Accepted (plan : RelayPlan P) : Prop where
  built : shared.plan K = .ok plan
  authorities : ∀ address ∈ plan.message.signerKeys,
    plan.execute.isPdaAuthority address = true →
    (plan.authoritySignatures.lookup address).isSome = true

end Submission

end Runs

section Loading

variable {K : Toolkit P} {shared : Submission P} {command : SubmitCommand P} {client : Client P}

/-- A local signer is listed under its own address, and its signatures verify. -/
def Local (K : Toolkit P) (entry : P.Address × P.LocalSigner) : Prop :=
  entry.2.tryPubkey = .ok entry.1 ∧ Verifies K entry.2

theorem loadRelaySigner_ok (laws : client.SignerLaws K)
    {signers found : List (P.Address × P.LocalSigner)} {source : P.SignerSource} {name : String}
    {allowNullSigner : Bool} {address given : P.Address} (stands : SourceOf client source given)
    (locals : ∀ entry ∈ signers, Local K entry)
    (loaded : Submit.loadRelaySigner client signers source name allowNullSigner =
      .ok (address, found)) :
    address = given ∧ ∀ entry ∈ found, Local K entry := by
  simp only [Submit.loadRelaySigner, bind_ok_iff, pure_ok_iff, Prod.mk.injEq] at loaded
  obtain ⟨signer, loads, named, names, same, rest⟩ := loaded
  subst same
  refine ⟨stands name allowNullSigner signer named loads names, ?_⟩
  subst rest
  cases source with
  | pubkey => exact locals
  | other path =>
      intro entry member
      rcases Sign.mem_addSigner member with kept | added
      · exact locals entry kept
      · rw [added]
        exact ⟨names, laws.verifies _ name allowNullSigner signer loads (.inr ⟨path, rfl⟩)⟩

theorem loadRelaySigners_ok (laws : client.SignerLaws K) {execute : ExecuteAccounts P}
    {requiredSigners : List P.Address} {sources : List P.SignerSource}
    {signers found : List (P.Address × P.LocalSigner)}
    (locals : ∀ entry ∈ signers, Local K entry)
    (loaded : Submit.loadRelaySigners K client execute requiredSigners sources signers =
      .ok found) :
    ∀ entry ∈ found, Local K entry := by
  induction sources generalizing signers with
  | nil =>
      obtain rfl := Except.ok.inj loaded
      exact locals
  | cons source rest ih =>
      simp only [Submit.loadRelaySigners, bind_ok_iff] at loaded
      obtain ⟨signer, loads, address, names, _, _, later⟩ := loaded
      refine ih (fun entry member => ?_) later
      rcases Sign.mem_addSigner member with kept | added
      · exact locals entry kept
      · rw [added]
        exact ⟨names, laws.verifies _ _ false signer loads (.inl rfl)⟩

theorem loadDurableNonce_ok (runs : shared.Runs K command client)
    {relaySignatures : List (P.Address × P.Signature)}
    {signers found : List (P.Address × P.LocalSigner)}
    {durableNonce : Option (P.Address × P.Address)}
    (locals : ∀ entry ∈ signers, Local K entry)
    (loaded : Submit.loadDurableNonce command client relaySignatures shared.feePayer signers =
      .ok (durableNonce, found)) :
    durableNonce = shared.durableNonce ∧ ∀ entry ∈ found, Local K entry := by
  unfold Submit.loadDurableNonce at loaded
  rw [runs.durableNonce] at loaded
  cases shares : shared.durableNonce with
  | none =>
      rw [shares] at loaded
      obtain ⟨rfl, rfl⟩ := Prod.mk.inj (Except.ok.inj loaded)
      exact ⟨rfl, locals⟩
  | some pair =>
      obtain ⟨address, authority⟩ := pair
      have given := runs.authority address authority shares
      rw [shares] at loaded
      cases own : command.durableNonceAuthority with
      | none =>
          rw [own] at loaded given
          obtain ⟨rfl, rfl⟩ := Prod.mk.inj (Except.ok.inj loaded)
          have given : authority = shared.feePayer := given
          exact ⟨by rw [given], locals⟩
      | some source =>
          rw [own] at loaded given
          simp only [Option.map_some, bind_ok_iff, pure_ok_iff, Prod.exists,
            Prod.mk.injEq] at loaded
          obtain ⟨named, signers', loads, rfl, rfl⟩ := loaded
          obtain ⟨rfl, more⟩ := loadRelaySigner_ok runs.laws given locals loads
          exact ⟨rfl, more⟩

/-- Every run finds the shared fee payer and durable nonce, whatever else it loads. -/
theorem loadSigners_ok (runs : shared.Runs K command client) {execute : ExecuteAccounts P}
    {requiredSigners : List P.Address} {relaySignatures : List (P.Address × P.Signature)}
    {loaded : LoadedSigners P}
    (found : Submit.loadSigners K command client execute requiredSigners relaySignatures =
      .ok loaded) :
    loaded.feePayer = shared.feePayer ∧ loaded.durableNonce = shared.durableNonce ∧
      ∀ entry ∈ loaded.signers, Local K entry := by
  simp only [Submit.loadSigners, bind_ok_iff, pure_ok_iff, Prod.exists] at found
  obtain ⟨source, feePayerSource, feePayer, signers, payer, durableNonce, signers', nonce, all,
    relays, _, _, same⟩ := found
  obtain ⟨rfl, locals⟩ := loadRelaySigner_ok runs.laws (runs.feePayer source feePayerSource)
    (fun entry member => by cases member) payer
  have durable := loadDurableNonce_ok runs locals nonce
  rw [← same]
  exact ⟨rfl, durable.1, loadRelaySigners_ok runs.laws durable.2 relays⟩

/-- An expected blockhash is the one that is used, live or not. -/
theorem liveBlockhash_eq {execute : ExecuteAccounts P}
    {durableNonce : Option (P.Address × P.Address)} {expected value : P.Hash}
    (given : command.blockhash = some expected)
    (live : Submit.liveBlockhash K command client execute durableNonce = .ok value) :
    value = expected := by
  unfold Submit.liveBlockhash at live
  split at live
  · have same := Except.ok.inj live
    simp only [given, Option.get_some] at same
    exact same.symm
  · obtain ⟨-, rest⟩ := bind_unit_ok_iff.mp live
    rw [given] at rest
    split at rest
    · simp only [Submit.checkDurableNonce, bind_ok_iff, pure_ok_iff, ensure_ok_iff,
        Option.getD_some] at rest
      obtain ⟨nonce, _, _, same, _, _, returned⟩ := rest
      exact returned.symm.trans same
    · exact (pure_ok_iff.mp rest).symm

end Loading

section Building

variable {K : Toolkit P}

theorem markedSubmit_signer {message : P.Message} {signatures : List (Option P.Signature)}
    {submitSigners : List P.Address} (known : submitSigners ⊆ message.accountKeys)
    (address : P.Address) :
    (markedSubmit message signatures submitSigners).grantsSigner address = true ↔
      address ∈ submitSigners := by
  rw [Instruction.grantsSigner_iff]
  simp only [markedSubmit, SignerClient.submit, List.mem_map, List.mem_mapIdx]
  constructor
  · rintro ⟨account, ⟨original, ⟨index, inside, shape⟩, marked⟩, same, signs⟩
    rw [← shape] at marked
    rw [← marked] at same signs
    rw [← same]
    simpa using signs
  · intro listed
    obtain ⟨index, inside, same⟩ := List.getElem_of_mem (known listed)
    refine ⟨_, ⟨_, ⟨index, inside, rfl⟩, rfl⟩, same, ?_⟩
    simp [same, listed]

/-- The relay transaction is unsigned, valid, and signed by those it names. -/
theorem buildRelay_ok (transactions : K.TransactionLaws) {message : P.Message}
    {execute : ExecuteAccounts P} {authoritySignatures : List (P.Address × P.Signature)}
    {feePayer : P.Address} {durableNonce : Option (P.Address × P.Address)} {blockhash : P.Hash}
    {transaction : P.Transaction}
    (built : Submit.buildRelay K message execute authoritySignatures feePayer durableNonce
      blockhash = .ok transaction) :
    transaction = unsigned transaction.message ∧ P.validate transaction.message = .ok () ∧
      ∀ address, address ∈ transaction.message.signerKeys ↔
        address = feePayer ∨ (∃ nonce, durableNonce = some (nonce, address)) ∨
          address ∈ Submit.submitSigners execute message.signerKeys authoritySignatures := by
  simp only [Submit.buildRelay, relayTransaction, bind_ok_iff, compileMessage_ok_iff,
    pure_ok_iff] at built
  obtain ⟨relay, ⟨compiled, ⟨compiles, valid⟩, unsent⟩, -, -, rfl⟩ := built
  subst unsent
  refine ⟨rfl, valid, fun address => ?_⟩
  have known : Submit.submitSigners execute message.signerKeys authoritySignatures ⊆
      message.accountKeys :=
    fun other listed => List.mem_of_mem_take (List.mem_of_mem_filter listed)
  have marked := @markedSubmit_signer P message
    (authoritySlots message authoritySignatures) _ known address
  refine (transactions.compiles _ _ _ _ _ compiles address).trans (or_congr_right ?_)
  cases durableNonce with
  | none =>
      simp only [List.mem_singleton, exists_eq_left, marked, reduceCtorEq, exists_false, false_or]
  | some pair =>
      have advance := transactions.advances pair.1 pair.2 address
      have named : (∃ nonce, some pair = some (nonce, address)) ↔ address = pair.2 := by
        constructor
        · rintro ⟨nonce, same⟩
          rw [Option.some.inj same]
        · intro same
          exact ⟨pair.1, by rw [same]⟩
      rw [named, List.exists_mem_cons_iff, advance]
      simp only [List.mem_singleton, exists_eq_left, marked]

variable {shared : Submission P} {command : SubmitCommand P} {client : Client P}

theorem plan_ok_iff {plan : RelayPlan P} : shared.plan K = .ok plan ↔
    Decode.readAuthorizationMessage K shared.authorizationMessage = .ok plan.message ∧
    ExecuteAccounts.tryNew K plan.message = .ok plan.execute ∧
    Submit.verifyAuthoritySignatures K plan.message plan.execute shared.signers [] =
      .ok plan.authoritySignatures ∧
    Submit.buildRelay K plan.message plan.execute plan.authoritySignatures shared.feePayer
      shared.durableNonce shared.blockhash = .ok plan.transaction := by
  simp only [Submission.plan, bind_ok_iff, pure_ok_iff]
  constructor
  · rintro ⟨message, read, execute, taken, signatures, verified, transaction, built, same⟩
    rw [← same]
    exact ⟨read, taken, verified, built⟩
  · rintro ⟨read, taken, verified, built⟩
    exact ⟨_, read, _, taken, _, verified, _, built, rfl⟩

/-- Any run that gets to its relay transaction got to the shared one. -/
theorem prepare_ok (runs : shared.Runs K command client) {prepared : PreparedRelay P}
    (found : Submit.prepare K command client = .ok prepared) :
    shared.Accepted K ⟨prepared.message, prepared.execute, prepared.authoritySignatures,
        prepared.transaction⟩ ∧
      (∀ entry ∈ prepared.signers, Local K entry) ∧
      ∀ entry ∈ prepared.placed, ∃ address,
        prepared.transaction.message.accountKeys[entry.1]? = some address ∧
        entry.1 < prepared.transaction.signatures.length ∧
        K.verify address entry.2 (Platform.serializeV1 prepared.transaction.message) = true := by
  have authorities := (prepare_checked found).authorities
  obtain ⟨relaySignatures, loaded, blockhash, found⟩ := (Submit.prepare_ok_iff K).mp found
  have read := found.read
  have verified := found.verified
  have built := found.built
  obtain ⟨feePayer, durableNonce, locals⟩ := loadSigners_ok runs found.loads
  rw [runs.authorizationMessage] at read
  rw [runs.signers] at verified
  rw [feePayer, durableNonce, liveBlockhash_eq runs.blockhash found.live] at built
  rw [found.signers] at locals
  refine ⟨⟨plan_ok_iff.mpr ⟨read, found.taken, verified, built⟩, authorities⟩, locals, ?_⟩
  · intro entry member
    obtain ⟨given, -, place⟩ := exists_of_forall₂ (mapM_ok_iff.mp found.places) member
    simp only [Submit.placeRelaySignature, bind_ok_iff, okOr_ok_iff, ensure_ok_iff,
      pure_ok_iff] at place
    obtain ⟨index, slot, -, valid, rfl⟩ := place
    have key := signerIndex_some slot
    exact ⟨given.1, key.1, key.2, valid⟩

/-- Signing fills the slots of everyone who signed, here or elsewhere, and no others. -/
theorem sign_fills {prepared : PreparedRelay P} {signed : P.Transaction}
    (locals : ∀ entry ∈ prepared.signers, Local K entry)
    (sound : ∀ entry ∈ prepared.placed, ∃ address,
      prepared.transaction.message.accountKeys[entry.1]? = some address ∧
      entry.1 < prepared.transaction.signatures.length ∧
      K.verify address entry.2 (Platform.serializeV1 prepared.transaction.message) = true)
    (done : Submit.sign K command client prepared = .ok signed) :
    Fills K prepared.transaction signed ∧
      (∀ entry ∈ prepared.placed, ValidSlot K signed entry.1) ∧
      ∀ entry ∈ prepared.signers, ∃ index,
        signed.message.accountKeys[index]? = some entry.1 ∧ ValidSlot K signed index := by
  simp only [Submit.sign, bind_ok_iff, context_ok_iff] at done
  obtain ⟨-, -, signs⟩ := done
  have filled := fillSlots_fills sound
  have signing := tryPartialSign_fills (fun signer listed => by
    obtain ⟨entry, among, same⟩ := List.mem_map.mp listed
    exact same ▸ (locals entry ((Submit.mem_localSigners prepared entry).mp among)).2) signs
  have fills := filled.1.trans signing.1
  refine ⟨fills, fun entry listed => signing.1.valid (filled.2 entry listed), ?_⟩
  intro entry listed
  have among : entry.2 ∈
      (Submit.authorizationSigners prepared ++ Submit.relayOnlySigners prepared).map Prod.snd :=
    List.mem_map_of_mem ((Submit.mem_localSigners prepared entry).mpr listed)
  obtain ⟨address, index, named, key, valid⟩ := signing.2 entry.2 among
  obtain rfl := Except.ok.inj ((locals entry listed).1.symm.trans named)
  refine ⟨index, ?_, valid⟩
  rw [fills.message]
  exact key

end Building

section SignOnly

variable (K : Toolkit P) (shared : Submission P)

/-- A successful sign-only run: the relay message it built and what it printed of it. -/
def Submission.SignOnlyRun (message : P.Message) (data : CliSignOnlyData) : Prop :=
  ∃ command client signed, shared.Runs K command client ∧ command.signOnly = true ∧
    Submit.relay K command client = .ok (.prints signed) ∧ signed.message = message ∧
    data = returnSignersData K signed (Platform.serializeV1 message)
      command.dumpTransactionMessage

variable {K shared}

theorem relay_signOnly {command : SubmitCommand P} {client : Client P} {stage : SubmitStage P}
    (offline : command.signOnly = true) (reached : Submit.relay K command client = .ok stage) :
    ∃ prepared signed, Submit.prepare K command client = .ok prepared ∧
      Submit.sign K command client prepared = .ok signed ∧ stage = .prints signed := by
  obtain ⟨prepared, prepares, finishes⟩ := bind_ok_iff.mp reached
  have online : ¬ command.dryRun = true := by
    intro dry
    exact Bool.noConfusion ((command.dryRun_conflicts dry).symm.trans offline)
  rw [Submit.finish, if_neg online] at finishes
  obtain ⟨signed, signs, rest⟩ := bind_ok_iff.mp finishes
  rw [if_pos offline, pure_ok_iff] at rest
  exact ⟨prepared, signed, prepares, signs, rest.symm⟩

/-- A successful sign-only run prints the hash of its relay message and sorts its signers. -/
theorem run_signOnly {command : SubmitCommand P} {client : Client P} {output : SubmitOutput P}
    (runs : shared.Runs K command client) (offline : command.signOnly = true)
    (ran : Submit.run K command client = .ok output) :
    ∃ message data, shared.SignOnlyRun K message data ∧
      output = .signOnly (K.showHash (K.hashRawMessage (Platform.serializeV1 message))) data := by
  obtain ⟨stage, reached, printed⟩ := bind_ok_iff.mp ran
  obtain ⟨prepared, signed, -, -, rfl⟩ := relay_signOnly offline reached
  exact ⟨signed.message, _, ⟨command, client, signed, runs, offline, reached, rfl, rfl⟩,
    (pure_ok_iff.mp printed).symm⟩

/-- The relay message is the shared one, and its signers are sorted without a bad signature. -/
theorem Submission.SignOnlyRun.sorted (messages : P.MessageLaws) (text : K.TextLaws)
    (transactions : K.TransactionLaws) {message : P.Message} {data : CliSignOnlyData}
    (run : shared.SignOnlyRun K message data) :
    Sorted K message data ∧
      ∃ plan, shared.Accepted K plan ∧ plan.transaction.message = message := by
  obtain ⟨command, client, signed, runs, offline, reached, same, rfl⟩ := run
  obtain ⟨prepared, signed', prepares, signs, stage⟩ := relay_signOnly offline reached
  obtain rfl := SubmitStage.prints.inj stage
  obtain ⟨accepted, locals, sound⟩ := prepare_ok runs prepares
  obtain ⟨fills, -, -⟩ := sign_fills locals sound signs
  obtain ⟨unsent, valid, -⟩ := buildRelay_ok transactions (plan_ok_iff.mp accepted.built).2.2.2
  have relayed : signed.message = prepared.transaction.message := fills.message
  have unsent : prepared.transaction = unsigned signed.message := unsent.trans (by rw [relayed])
  rw [unsent] at fills
  rw [← relayed] at valid
  rw [← same]
  exact ⟨returnSignersData_sorted text transactions (messages.wellFormed _ valid) fills _,
    _, accepted, relayed.symm⟩

end SignOnly

end ProgrammaticSigner
