import ProgrammaticSigner.Cli.Relay
import ProgrammaticSigner.Cli.Signed

set_option autoImplicit false

/- An online run that is handed a key or a relay signature for every relay signer. -/
namespace ProgrammaticSigner

open Outcome V1Transaction

variable {P : Platform}

section Supplies

variable (K : Toolkit P)

/-- The source is a key that signs for the address. -/
def HasKey (client : Client P) (source : P.SignerSource) (address : P.Address) : Prop :=
  (∃ path, source = .other path) ∧ ∀ name allowNullSigner, ∃ signer,
    client.loadSigner source name allowNullSigner = .ok signer ∧ Signs K signer address

/-- A relay signature is passed for the address. -/
def Given (command : SubmitCommand P) (address : P.Address) : Prop :=
  ∃ signature, signatureEntry K address signature ∈ command.relaySignature

/-- A signer's own source is its key, or its address where its relay signature is passed. -/
def OwnSource (command : SubmitCommand P) (client : Client P) (source : P.SignerSource)
    (address : P.Address) : Prop :=
  HasKey K client source address ∧ ¬ Given K command address ∨
    source = .pubkey address ∧ Given K command address

/-- Every relay signer gets its own key or a relay signature from a sign-only run, and nobody
else gets either. -/
structure Supplied (shared : Submission P) (plan : RelayPlan P) (command : SubmitCommand P)
    (client : Client P) : Prop where
  signatures : ∀ entry ∈ command.relaySignature, ∃ message data,
    shared.SignOnlyRun K message data ∧ entry ∈ data.signers
  feePayer : ∃ source, client.feePayerSource = .ok source ∧
    OwnSource K command client source shared.feePayer
  authority : ∀ source nonce authority, command.durableNonceAuthority = some source →
    shared.durableNonce = some (nonce, authority) → OwnSource K command client source authority
  relaySigners : ∀ source ∈ command.relaySigner, ∃ address ∈ plan.submitSigners,
    HasKey K client source address ∧ ¬ Given K command address
  complete : ∀ address ∈ plan.submitSigners, Given K command address ∨
    (∃ source ∈ command.relaySigner, HasKey K client source address) ∨
    (address = shared.feePayer ∨ ∃ nonce, shared.durableNonce = some (nonce, address))

/-- A run that may send: the live nonces are the expected ones, and whoever is asked
confirms. -/
structure Online (shared : Submission P) (plan : RelayPlan P) (command : SubmitCommand P)
    (client : Client P) : Prop where
  signOnly : command.signOnly = false
  dryRun : command.dryRun = false
  nonces : ∃ value,
    Submit.liveBlockhash K command client plan.execute shared.durableNonce = .ok value
  confirmed : ∀ signers, Summary.confirmSigning client signers command.yes = .ok ()

end Supplies

section Parsing

variable {K : Toolkit P}

theorem parseSignatureEntry_entry (text : K.TextLaws) (address : P.Address)
    (signature : P.Signature) (kind : String) :
    Submit.parseSignatureEntry K (signatureEntry K address signature) kind =
      .ok (address, signature) := by
  have parts := splitOnce_append (K.showSignature signature) (text.address_plain address)
  simp only [Submit.parseSignatureEntry, bind_ok_iff, okOr_ok_iff, context_ok_iff, pure_ok_iff]
  exact ⟨_, parts, address, text.address address, signature, text.signature signature, rfl⟩

/-- Entries that were written by a sign-only run read back. -/
theorem parse_entries (text : K.TextLaws) {entries : List Text} {kind : String}
    (written : ∀ entry ∈ entries, ∃ address signature,
      entry = signatureEntry K address signature) :
    ∃ parsed, entries.mapM (fun entry => Submit.parseSignatureEntry K entry kind) = .ok parsed ∧
      ∀ address signature, (address, signature) ∈ parsed ↔
        signatureEntry K address signature ∈ entries := by
  have each : ∀ entry ∈ entries, ∃ value,
      Submit.parseSignatureEntry K entry kind = .ok value := by
    intro entry listed
    obtain ⟨address, signature, same⟩ := written entry listed
    rw [same]
    exact ⟨_, parseSignatureEntry_entry text address signature kind⟩
  obtain ⟨parsed, found, related⟩ := mapM_exists each
  refine ⟨parsed, found, fun address signature => ⟨fun listed => ?_, fun listed => ?_⟩⟩
  · obtain ⟨entry, among, read⟩ := exists_of_forall₂ related listed
    obtain ⟨address', signature', same⟩ := written entry among
    rw [same, parseSignatureEntry_entry text] at read
    obtain ⟨rfl, rfl⟩ := Prod.mk.inj (Except.ok.inj read)
    exact same ▸ among
  · obtain ⟨value, among, read⟩ := exists_of_forall₂ related.flip listed
    rw [parseSignatureEntry_entry text] at read
    exact Except.ok.inj read ▸ among

end Parsing

section Loading

variable {K : Toolkit P} {shared : Submission P} {plan : RelayPlan P}
  {command : SubmitCommand P} {client : Client P}

/-- A local signer of an online run: it signs, has a slot, and signed nowhere else. -/
structure Ready (K : Toolkit P) (plan : RelayPlan P) (command : SubmitCommand P)
    (entry : P.Address × P.LocalSigner) : Prop where
  signs : Signs K entry.2 entry.1
  slot : entry.1 ∈ plan.transaction.message.signerKeys
  here : ¬ Given K command entry.1

/-- Loading adds ready signers and drops none. -/
structure Loads (K : Toolkit P) (plan : RelayPlan P) (command : SubmitCommand P)
    (before after : List (P.Address × P.LocalSigner)) : Prop where
  ready : ∀ entry ∈ after, Ready K plan command entry
  keeps : before ⊆ after

theorem addSigner_loads {signers : List (P.Address × P.LocalSigner)} {address : P.Address}
    {signer : P.LocalSigner} (ready : ∀ entry ∈ signers, Ready K plan command entry)
    (more : Ready K plan command (address, signer)) :
    Loads K plan command signers (Sign.addSigner signers address signer) := by
  refine ⟨fun entry member => ?_, (Sign.addSigner_covers signers address signer).1⟩
  rcases Sign.mem_addSigner member with kept | added
  · exact ready entry kept
  · exact added ▸ more

theorem loadRelaySigner_supplied (laws : client.SignerLaws K)
    {relaySignatures : List (P.Address × P.Signature)}
    (found : ∀ address, (relaySignatures.lookup address).isSome = true ↔ Given K command address)
    {signers : List (P.Address × P.LocalSigner)} {source : P.SignerSource} {address : P.Address}
    (name : String) (ready : ∀ entry ∈ signers, Ready K plan command entry)
    (slot : address ∈ plan.transaction.message.signerKeys)
    (own : OwnSource K command client source address) :
    ∃ after, Submit.loadRelaySigner client signers source name
        (Submit.allowNullSigner command relaySignatures source) = .ok (address, after) ∧
      Loads K plan command signers after ∧
      (Given K command address ∨ ∃ entry ∈ after, entry.1 = address) := by
  rcases own with ⟨⟨⟨path, other⟩, key⟩, absent⟩ | ⟨bare, given⟩
  · obtain ⟨signer, loads, signs⟩ := key name
      (Submit.allowNullSigner command relaySignatures source)
    refine ⟨Sign.addSigner signers address signer, ?_,
      addSigner_loads ready ⟨signs, slot, absent⟩, .inr ?_⟩
    · rw [Submit.loadRelaySigner, bind_of_ok loads, bind_of_ok signs.1, other]
      rfl
    · exact (Sign.addSigner_covers signers address signer).2
  · have allowed : Submit.allowNullSigner command relaySignatures source = true := by
      rw [bare, Submit.allowNullSigner, Bool.or_eq_true]
      exact .inr ((found address).mpr given)
    obtain ⟨signer, loads, named⟩ := laws.addresses address name
    refine ⟨signers, ?_, ⟨ready, List.Subset.refl _⟩, .inl given⟩
    rw [allowed, bare, Submit.loadRelaySigner, bind_of_ok loads, bind_of_ok named]
    rfl

theorem loadDurableNonce_supplied (runs : shared.Runs K command client)
    (supplied : Supplied K shared plan command client)
    {relaySignatures : List (P.Address × P.Signature)}
    (found : ∀ address, (relaySignatures.lookup address).isSome = true ↔ Given K command address)
    {signers : List (P.Address × P.LocalSigner)}
    (ready : ∀ entry ∈ signers, Ready K plan command entry)
    (slot : ∀ nonce authority, shared.durableNonce = some (nonce, authority) →
      authority ∈ plan.transaction.message.signerKeys)
    (payer : Given K command shared.feePayer ∨ ∃ entry ∈ signers, entry.1 = shared.feePayer) :
    ∃ after, Submit.loadDurableNonce command client relaySignatures shared.feePayer signers =
        .ok (shared.durableNonce, after) ∧ Loads K plan command signers after ∧
      ∀ nonce authority, shared.durableNonce = some (nonce, authority) →
        Given K command authority ∨ ∃ entry ∈ after, entry.1 = authority := by
  unfold Submit.loadDurableNonce
  rw [runs.durableNonce]
  cases shares : shared.durableNonce with
  | none =>
      refine ⟨signers, rfl, ⟨ready, List.Subset.refl _⟩, ?_⟩
      intro nonce authority same
      cases same
  | some pair =>
      obtain ⟨nonce, authority⟩ := pair
      have given := runs.authority nonce authority shares
      cases own : command.durableNonceAuthority with
      | none =>
          rw [own] at given
          have given : authority = shared.feePayer := given
          refine ⟨signers, by rw [given]; rfl, ⟨ready, List.Subset.refl _⟩, ?_⟩
          intro nonce' authority' same
          obtain ⟨-, rfl⟩ := Prod.mk.inj (Option.some.inj same)
          rw [given]
          exact payer
      | some source =>
          obtain ⟨after, loads, loaded, present⟩ := loadRelaySigner_supplied runs.laws found
            "durable nonce authority" ready (slot nonce authority shares)
            (supplied.authority source nonce authority own shares)
          refine ⟨after, ?_, loaded, ?_⟩
          · show (Submit.loadRelaySigner _ _ _ _ _ >>= _) = _
            rw [bind_of_ok loads]
            rfl
          · intro nonce' authority' same
            obtain ⟨-, rfl⟩ := Prod.mk.inj (Option.some.inj same)
            exact present

theorem Loads.trans {before middle after : List (P.Address × P.LocalSigner)}
    (first : Loads K plan command before middle) (second : Loads K plan command middle after) :
    Loads K plan command before after :=
  ⟨second.ready, List.Subset.trans first.keeps second.keeps⟩

theorem submitSigners_role {address : P.Address} (listed : address ∈ plan.submitSigners) :
    address ∈ plan.message.signerKeys ∧
      (plan.execute.isExecutorSigner address || plan.execute.isRequiredRelaySigner address) =
        true := by
  obtain ⟨required, role⟩ := List.mem_filter.mp listed
  refine ⟨required, ?_⟩
  rw [Bool.or_eq_true] at role ⊢
  exact role.imp_right fun both => (Bool.and_eq_true_iff.mp both).1

theorem loadRelaySigners_supplied
    (slot : ∀ address ∈ plan.submitSigners, address ∈ plan.transaction.message.signerKeys)
    {sources : List P.SignerSource} (given : ∀ source ∈ sources, ∃ address ∈ plan.submitSigners,
      HasKey K client source address ∧ ¬ Given K command address)
    {signers : List (P.Address × P.LocalSigner)}
    (ready : ∀ entry ∈ signers, Ready K plan command entry) :
    ∃ after, Submit.loadRelaySigners K client plan.execute plan.message.signerKeys sources
        signers = .ok after ∧ Loads K plan command signers after ∧
      ∀ source ∈ sources, ∀ address, HasKey K client source address →
        ∃ entry ∈ after, entry.1 = address := by
  induction sources generalizing signers with
  | nil => exact ⟨signers, rfl, ⟨ready, List.Subset.refl _⟩, fun source member => by cases member⟩
  | cons source rest ih =>
      obtain ⟨address, listed, key, absent⟩ := given source List.mem_cons_self
      obtain ⟨signer, loads, signs⟩ := key.2 "relay signer" false
      have role := submitSigners_role listed
      have first := addSigner_loads ready ⟨signs, slot address listed, absent⟩
      obtain ⟨after, later, more, covers⟩ := ih
        (fun other member => given other (List.mem_cons_of_mem _ member)) first.ready
      refine ⟨after, ?_, first.trans more, ?_⟩
      · simp only [Submit.loadRelaySigners, bind_ok_iff]
        exact ⟨signer, loads, address, signs.1, (), ensure_ok_iff.mpr role, later⟩
      · intro other member found key'
        rcases List.mem_cons.mp member with same | member
        · rw [same] at key'
          obtain ⟨signer', loads', signs'⟩ := key'.2 "relay signer" false
          obtain rfl := Except.ok.inj (loads.symm.trans loads')
          obtain rfl := Except.ok.inj (signs.1.symm.trans signs'.1)
          obtain ⟨entry, added, equal⟩ := (Sign.addSigner_covers signers address signer).2
          exact ⟨entry, more.keeps added, equal⟩
        · exact covers other member found key'

/-- Everyone who signs the relay transaction is loaded, or passed a relay signature. -/
theorem loadSigners_supplied (runs : shared.Runs K command client)
    (supplied : Supplied K shared plan command client)
    {relaySignatures : List (P.Address × P.Signature)}
    (found : ∀ address, (relaySignatures.lookup address).isSome = true ↔ Given K command address)
    (slots : ∀ address, address ∈ plan.transaction.message.signerKeys ↔
      address = shared.feePayer ∨ (∃ nonce, shared.durableNonce = some (nonce, address)) ∨
        address ∈ plan.submitSigners) :
    ∃ signers, Submit.loadSigners K command client plan.execute plan.message.signerKeys
        relaySignatures = .ok ⟨shared.feePayer, shared.durableNonce, signers⟩ ∧
      (∀ entry ∈ signers, Ready K plan command entry) ∧
      ∀ address ∈ plan.transaction.message.signerKeys,
        Given K command address ∨ ∃ entry ∈ signers, entry.1 = address := by
  obtain ⟨source, feePayerSource, own⟩ := supplied.feePayer
  have nobody : ∀ entry ∈ ([] : List (P.Address × P.LocalSigner)),
      Ready K plan command entry := fun entry member => by cases member
  obtain ⟨first, payer, loaded, paid⟩ := loadRelaySigner_supplied runs.laws found "fee payer"
    nobody ((slots _).mpr (.inl rfl)) own
  obtain ⟨second, nonce, loaded', authorized⟩ := loadDurableNonce_supplied runs supplied found
    loaded.ready (fun nonce authority same => (slots authority).mpr (.inr (.inl ⟨nonce, same⟩)))
    paid
  obtain ⟨signers, relays, loaded'', covers⟩ := loadRelaySigners_supplied
    (fun address listed => (slots address).mpr (.inr (.inr listed))) supplied.relaySigners
    loaded'.ready
  have apart : forM signers (fun entry => ensure ((relaySignatures.lookup entry.1).isNone)
      [s!"{K.display entry.1} has both a local signer and a --relay-signature"]) = .ok () := by
    rw [forM_ok_iff]
    intro entry member
    rw [ensure_ok_iff, Option.isNone_iff_eq_none, ← Option.not_isSome_iff_eq_none, found]
    exact (loaded''.ready entry member).here
  have payer' : Given K command shared.feePayer ∨ ∃ entry ∈ signers, entry.1 = shared.feePayer := by
    refine paid.imp_right fun present => ?_
    obtain ⟨entry, member, same⟩ := present
    exact ⟨entry, loaded''.keeps (loaded'.keeps member), same⟩
  have authority' : ∀ nonce authority, shared.durableNonce = some (nonce, authority) →
      Given K command authority ∨ ∃ entry ∈ signers, entry.1 = authority := by
    intro nonce authority same
    refine (authorized nonce authority same).imp_right fun present => ?_
    obtain ⟨entry, member, same⟩ := present
    exact ⟨entry, loaded''.keeps member, same⟩
  refine ⟨signers, ?_, loaded''.ready, ?_⟩
  · simp only [Submit.loadSigners, bind_ok_iff, pure_ok_iff, Prod.exists]
    exact ⟨source, feePayerSource, _, _, payer, _, _, nonce, signers, relays, (), apart, rfl⟩
  · intro address slot
    rcases (slots address).mp slot with same | ⟨nonce, same⟩ | listed
    · exact same ▸ payer'
    · exact authority' nonce address same
    · rcases supplied.complete address listed with given | ⟨source, among, key⟩ | role
      · exact .inl given
      · exact .inr (covers source among address key)
      · rcases role with same | ⟨nonce, same⟩
        · exact same ▸ payer'
        · exact authority' nonce address same

end Loading

section Online

variable {K : Toolkit P} {shared : Submission P} {plan : RelayPlan P}
  {command : SubmitCommand P} {client : Client P}

/-- Every passed relay signature is one over the shared relay message. -/
theorem Supplied.signed (messages : P.MessageLaws) (text : K.TextLaws)
    (transactions : K.TransactionLaws) (accepted : shared.Accepted K plan)
    (supplied : Supplied K shared plan command client) {address : P.Address}
    {signature : P.Signature}
    (listed : signatureEntry K address signature ∈ command.relaySignature) :
    address ∈ plan.transaction.message.signerKeys ∧
      K.verify address signature (Platform.serializeV1 plan.transaction.message) = true := by
  obtain ⟨message, data, run, among⟩ := supplied.signatures _ listed
  obtain ⟨sorted, plan', accepted', same⟩ := run.sorted messages text transactions
  obtain rfl := Except.ok.inj (accepted.built.symm.trans accepted'.built)
  obtain ⟨address', member, signature', written, verified⟩ := sorted.signers _ among
  obtain ⟨rfl, rfl⟩ := signatureEntry_inj text written
  rw [same]
  exact ⟨member, verified⟩

theorem Supplied.written (messages : P.MessageLaws) (text : K.TextLaws)
    (transactions : K.TransactionLaws) (supplied : Supplied K shared plan command client) :
    ∀ entry ∈ command.relaySignature, ∃ address signature,
      entry = signatureEntry K address signature := by
  intro entry listed
  obtain ⟨message, data, run, among⟩ := supplied.signatures entry listed
  obtain ⟨address, -, signature, same, -⟩ :=
    (run.sorted messages text transactions).1.signers entry among
  exact ⟨address, signature, same⟩

/-- Each required signer of the authorization message passes the check on it. -/
theorem checkRequiredSigner_supplied (accepted : shared.Accepted K plan)
    {relaySignatures : List (P.Address × P.Signature)}
    {signers : List (P.Address × P.LocalSigner)}
    (found : ∀ address, (relaySignatures.lookup address).isSome = true ↔ Given K command address)
    (complete : ∀ address ∈ plan.submitSigners,
      Given K command address ∨ ∃ entry ∈ signers, entry.1 = address)
    {address : P.Address} (required : address ∈ plan.message.signerKeys) (dryRun : Bool) :
    Submit.checkRequiredSigner K plan.execute plan.authoritySignatures
      (Submit.signsRelay command plan.message.signerKeys relaySignatures signers) dryRun
      address = .ok () := by
  have signs : address ∈ plan.submitSigners →
      Submit.signsRelay command plan.message.signerKeys relaySignatures signers address = true := by
    intro listed
    simp only [Submit.signsRelay, Bool.or_eq_true]
    refine .inl (.inl ?_)
    rcases complete address listed with given | ⟨entry, member, same⟩
    · exact .inr ((found address).mpr given)
    · refine .inl (List.any_eq_true.mpr ⟨entry, List.mem_filter.mpr ⟨member, ?_⟩, ?_⟩)
      · exact decide_eq_true (same ▸ required)
      · exact beq_iff_eq.mpr same
  have marked (role : (plan.execute.isExecutorSigner address ||
      plan.execute.isRequiredRelaySigner address &&
        (plan.authoritySignatures.lookup address).isNone) = true) :
      address ∈ plan.submitSigners := List.mem_filter.mpr ⟨required, role⟩
  have authorized := accepted.authorities address required
  simp only [Submit.checkRequiredSigner, bind_ok_iff, ensure_ok_iff]
  refine ⟨(), ?_, (), ?_, ?_⟩
  · cases relays : plan.execute.isRequiredRelaySigner address with
    | false => rfl
    | true =>
        cases signed : plan.authoritySignatures.lookup address with
        | some signature => rfl
        | none =>
            have role := marked (by rw [relays, signed, Bool.or_eq_true]; exact .inr rfl)
            rw [signs role, Bool.or_true]
  · cases authority : plan.execute.isPdaAuthority address with
    | false => rfl
    | true => rw [authorized authority, Bool.or_true]
  · cases uses : plan.execute.isExecutorSigner address with
    | false => rfl
    | true =>
        have role := marked (by rw [uses, Bool.true_or])
        rw [signs role, Bool.or_true]

/-- A relay signature over the shared message has its slot. -/
theorem placeRelaySignature_exists {transaction : P.Transaction} {address : P.Address}
    {signature : P.Signature} (unsent : transaction = unsigned transaction.message)
    (member : address ∈ transaction.message.signerKeys)
    (verified : K.verify address signature (Platform.serializeV1 transaction.message) = true) :
    ∃ index, transaction.message.accountKeys[index]? = some address ∧
      Submit.placeRelaySignature K transaction (Platform.serializeV1 transaction.message)
        (address, signature) = .ok (index, signature) := by
  have count : transaction.signatures.length =
      transaction.message.header.numRequiredSignatures.toNat := by
    rw [unsent]
    exact List.length_replicate
  have signer : address ∈
      transaction.message.accountKeys.take transaction.signatures.length := by
    rw [count]
    exact member
  obtain ⟨index, found⟩ := signerIndex_exists signer
  refine ⟨index, (signerIndex_some found).1, ?_⟩
  simp only [Submit.placeRelaySignature, bind_ok_iff, okOr_ok_iff, ensure_ok_iff, pure_ok_iff]
  exact ⟨index, found, (), verified, rfl⟩

/-- The run gets to the shared relay transaction, with everyone's key or signature. -/
theorem prepare_supplied (messages : P.MessageLaws) (text : K.TextLaws)
    (transactions : K.TransactionLaws) (accepted : shared.Accepted K plan)
    (runs : shared.Runs K command client) (supplied : Supplied K shared plan command client)
    (online : Online K shared plan command client) :
    ∃ signers placed, Submit.prepare K command client = .ok ⟨plan.message, plan.execute,
        plan.authoritySignatures, signers, plan.transaction, placed⟩ ∧
      (∀ entry ∈ signers, Ready K plan command entry) ∧
      ∀ address ∈ plan.transaction.message.signerKeys,
        (∃ entry ∈ placed, plan.transaction.message.accountKeys[entry.1]? = some address) ∨
        ∃ entry ∈ signers, entry.1 = address := by
  obtain ⟨read, taken, verified, built⟩ := plan_ok_iff.mp accepted.built
  obtain ⟨unsent, valid, slots⟩ := buildRelay_ok transactions built
  obtain ⟨parsed, parses, listed⟩ :=
    parse_entries text (supplied.written messages text transactions)
  have signed {address : P.Address} {signature : P.Signature}
      (member : (address, signature) ∈ parsed) :=
    supplied.signed messages text transactions accepted ((listed address signature).mp member)
  have found : ∀ address, ((Submit.collectEntries parsed).lookup address).isSome = true ↔
      Given K command address := by
    intro address
    rw [Submit.lookup_collectEntries]
    constructor
    · rintro ⟨entry, member, same⟩
      exact ⟨entry.2, (listed _ _).mp (same ▸ member)⟩
    · rintro ⟨signature, member⟩
      exact ⟨(address, signature), (listed _ _).mpr member, rfl⟩
  obtain ⟨signers, loads, ready, complete⟩ := loadSigners_supplied runs supplied found slots
  have checked : forM plan.message.signerKeys (Submit.checkRequiredSigner K plan.execute
      plan.authoritySignatures (Submit.signsRelay command plan.message.signerKeys
        (Submit.collectEntries parsed) signers) command.dryRun) = .ok () := by
    rw [forM_ok_iff]
    intro address required
    exact checkRequiredSigner_supplied accepted found
      (fun other member => complete other ((slots other).mpr (.inr (.inr member)))) required _
  obtain ⟨value, live⟩ := online.nonces
  obtain rfl := liveBlockhash_eq runs.blockhash live
  have placing : ∀ entry ∈ Submit.collectEntries parsed, ∃ place,
      Submit.placeRelaySignature K plan.transaction
        (Platform.serializeV1 plan.transaction.message) entry = .ok place := by
    intro entry member
    have sound := signed (Submit.mem_collectEntries member)
    obtain ⟨index, -, place⟩ := placeRelaySignature_exists unsent sound.1 sound.2
    exact ⟨_, place⟩
  obtain ⟨placed, places, related⟩ := mapM_exists placing
  refine ⟨signers, placed, ?_, ready, ?_⟩
  · apply (Submit.prepare_ok_iff K).mpr
    refine ⟨_, _, _, ⟨?_, taken, ?_, ⟨_, parses, rfl⟩, loads, rfl, checked, live, built⟩, places⟩
    · rw [runs.authorizationMessage]
      exact read
    · rw [runs.signers]
      exact verified
  · intro address member
    refine (complete address member).imp_left fun given => ?_
    obtain ⟨entry, among, same⟩ := List.lookup_isSome_iff.mp ((found address).mpr given)
    obtain ⟨place, at_, placed_⟩ := exists_of_forall₂ related.flip among
    have sound := signed (Submit.mem_collectEntries among)
    obtain ⟨index, key, place'⟩ := placeRelaySignature_exists unsent sound.1 sound.2
    obtain rfl := Except.ok.inj (place'.symm.trans placed_)
    exact ⟨_, at_, eq_of_beq same ▸ key⟩

/-- A transaction verifies when each of its signers has a valid slot. -/
theorem verifies_of_validSlots (transactions : K.TransactionLaws) {sent : P.Transaction}
    (formed : sent.message.WellFormed)
    (count : sent.signatures.length = sent.message.header.numRequiredSignatures.toNat)
    (whole : ∀ address ∈ sent.message.signerKeys, ∃ index,
      sent.message.accountKeys[index]? = some address ∧ ValidSlot K sent index) :
    ∀ valid ∈ K.verifyWithResults sent, valid = true := by
  intro valid listed
  rw [transactions.verifies] at listed
  obtain ⟨slot, among, same⟩ := List.mem_map.mp listed
  obtain ⟨index, found⟩ := List.mem_iff_getElem?.mp among
  obtain ⟨given, key⟩ := List.getElem?_zip_eq_some.mp found
  have below : index < sent.message.header.numRequiredSignatures.toNat := by
    rw [← count]
    exact (List.getElem?_eq_some_iff.mp given).1
  obtain ⟨inside, named⟩ := List.getElem?_eq_some_iff.mp key
  have member := (formed.getElem_mem_signerKeys inside).mpr below
  rw [named] at member
  obtain ⟨other, key', own, signature, key'', given', verified⟩ := whole slot.2 member
  obtain rfl := Option.some.inj (key'.symm.trans key'')
  obtain rfl := (List.getElem?_inj inside formed.distinct).mp (key.trans key'.symm)
  obtain rfl := Option.some.inj (given.symm.trans given')
  rw [← same]
  exact verified

/-- Everything is signed, so the transaction goes out with every slot valid. -/
theorem relay_sends (messages : P.MessageLaws) (text : K.TextLaws)
    (transactions : K.TransactionLaws) (accepted : shared.Accepted K plan)
    (runs : shared.Runs K command client) (supplied : Supplied K shared plan command client)
    (online : Online K shared plan command client) :
    ∃ sent, Submit.relay K command client = .ok (.sends sent plan.execute.nonceAccount) ∧
      sent.message = plan.transaction.message ∧
      sent.signatures.length = sent.message.header.numRequiredSignatures.toNat ∧
      ∀ valid ∈ K.verifyWithResults sent, valid = true := by
  obtain ⟨unsent, valid, slots⟩ := buildRelay_ok transactions (plan_ok_iff.mp accepted.built).2.2.2
  have formed := messages.wellFormed _ valid
  obtain ⟨signers, placed, prepares, ready, complete⟩ :=
    prepare_supplied messages text transactions accepted runs supplied online
  obtain ⟨-, locals, sound⟩ := prepare_ok runs prepares
  let prepared : PreparedRelay P := ⟨plan.message, plan.execute, plan.authoritySignatures,
    signers, plan.transaction, placed⟩
  have count : plan.transaction.signatures.length =
      plan.transaction.message.header.numRequiredSignatures.toNat := by
    rw [unsent]
    exact List.length_replicate
  have filled := (fillSlots_fills sound).1
  have able : ∀ signer ∈ (Submit.authorizationSigners prepared ++
      Submit.relayOnlySigners prepared).map Prod.snd, ∃ address, Signs K signer address ∧
      address ∈ (fillSlots plan.transaction placed).message.accountKeys.take
        (fillSlots plan.transaction placed).signatures.length := by
    intro signer listed
    obtain ⟨entry, among, same⟩ := List.mem_map.mp listed
    have one := ready entry ((Submit.mem_localSigners prepared entry).mp among)
    refine ⟨entry.1, same ▸ one.signs, ?_⟩
    rw [filled.message, filled.length, count]
    exact one.slot
  obtain ⟨sent, signing⟩ := @tryPartialSign_exists P K _
    (Platform.serializeV1 plan.transaction.message) _ able
  have signs : Submit.sign K command client prepared = .ok sent := by
    have reviewed : Submit.review command client prepared = .ok () := by
      unfold Submit.review
      split
      · exact online.confirmed _
      · rfl
    rw [Submit.sign, bind_of_ok reviewed, context_ok_iff]
    exact signing
  obtain ⟨fills, elsewhere, here⟩ := sign_fills locals sound signs
  have written : sent.signatures.length =
      sent.message.header.numRequiredSignatures.toNat := by
    rw [fills.length, fills.message, count]
  have all := verifies_of_validSlots transactions (fills.message ▸ formed) written (by
    intro address member
    rw [fills.message] at member
    rcases complete address member with ⟨entry, among, key⟩ | ⟨entry, among, same⟩
    · exact ⟨entry.1, by rw [fills.message]; exact key, elsewhere entry among⟩
    · exact same ▸ here entry among)
  refine ⟨sent, ?_, fills.message, written, all⟩
  have nobody : (K.verifyWithResults sent).idxOf? false = none := by
    rw [List.idxOf?_eq_none_iff]
    intro listed
    exact Bool.noConfusion (all false listed)
  rw [Submit.relay, bind_of_ok prepares, Submit.finish, online.dryRun, if_neg Bool.false_ne_true,
    bind_of_ok signs, online.signOnly, if_neg Bool.false_ne_true, nobody]
  rfl

end Online

/-- Relay signing in separate runs is consistent: sign-only runs on shared arguments all build
one relay message and sort its signers into those with a valid signature and those absent,
and an online run that is handed everyone's key or relay signature sends it complete. -/
theorem relay_signing_consistent (messages : P.MessageLaws) (K : Toolkit P) (text : K.TextLaws)
    (transactions : K.TransactionLaws) (shared : Submission P) :
    (∀ command client output, shared.Runs K command client → command.signOnly = true →
      Submit.run K command client = .ok output →
      ∃ message data, shared.SignOnlyRun K message data ∧ output =
        .signOnly (K.showHash (K.hashRawMessage (Platform.serializeV1 message))) data) ∧
    (∀ message other data otherData, shared.SignOnlyRun K message data →
      shared.SignOnlyRun K other otherData → message = other) ∧
    (∀ message data, shared.SignOnlyRun K message data →
      Sorted K message data ∧
        ∃ plan, shared.Accepted K plan ∧ plan.transaction.message = message) ∧
    (∀ plan command client, shared.Accepted K plan → shared.Runs K command client →
      Supplied K shared plan command client → Online K shared plan command client →
      ∃ sent, Submit.relay K command client = .ok (.sends sent plan.execute.nonceAccount) ∧
        sent.message = plan.transaction.message ∧
        sent.signatures.length = sent.message.header.numRequiredSignatures.toNat ∧
        ∀ valid ∈ K.verifyWithResults sent, valid = true) := by
  refine ⟨?_, ?_, ?_, ?_⟩
  · intro command client output runs offline ran
    exact run_signOnly runs offline ran
  · intro message other data otherData first second
    obtain ⟨-, plan, accepted, same⟩ := first.sorted messages text transactions
    obtain ⟨-, plan', accepted', same'⟩ := second.sorted messages text transactions
    obtain rfl := Except.ok.inj (accepted.built.symm.trans accepted'.built)
    exact same.symm.trans same'
  · intro message data run
    exact run.sorted messages text transactions
  · intro plan command client accepted runs supplied online
    exact relay_sends messages text transactions accepted runs supplied online

namespace Reference

def execution : ExecuteAccounts .reference := ⟨nonceAuthority, nonceAccount, state.nonce, message⟩

def shared : Submission .reference where
  authorizationMessage := encodeText (Platform.serializeV1 authorization)
  signers := [signatureEntry Toolkit.reference (30 : Nat) signature]
  feePayer := (50 : Nat)
  durableNonce := none
  blockhash := [9]

def relayMessage : Platform.reference.Message where
  header := ⟨1, 0, 4⟩
  config := limits
  lifetimeSpecifier := [9]
  accountKeys := [50, 20, 30, 61, 2, 4, 6, 40]
  instructions := [⟨6, [2, 1, 3, 5, 4, 7], relay.data⟩]

def relayPlan : RelayPlan .reference :=
  ⟨authorization, execution, [((30 : Nat), signature)], unsigned relayMessage⟩

/-- The fee payer's signature over the relay message. -/
def paid : Platform.reference.Signature := some (50, Platform.serializeV1 relayMessage)

theorem shared_planned : shared.plan Toolkit.reference = .ok relayPlan := by
  have planned := Sign.authorize_planned messageLaws signCommand_authorizes
  refine plan_ok_iff.mpr ⟨?_, ?_, ?_, ?_⟩
  · exact Decode.readAuthorizationMessage_encode Toolkit.reference messageLaws textLaws
      planned.authorizes.valid planned.authorizes.config
  · exact ExecuteAccounts.tryNew_ok Toolkit.reference messageLaws planned.valid planned.config
      planned.authorizes
  · show Submit.verifyAuthoritySignatures _ _ _ [signatureEntry _ (30 : Nat) signature] [] = _
    rw [Submit.verifyAuthoritySignatures]
    refine (bind_of_ok (parseSignatureEntry_entry textLaws _ _ _)).trans ?_
    decide +kernel
  · decide +kernel

theorem shared_accepted : shared.Accepted Toolkit.reference relayPlan := by
  refine ⟨shared_planned, ?_⟩
  decide +kernel

/-- A run on the shared arguments whose fee payer and mode are its own. -/
def submitCommand (relaySignature : List Text) (signOnly : Bool) : SubmitCommand .reference where
  authorizationMessage := shared.authorizationMessage
  signers := shared.signers
  relaySigner := []
  relaySignature := relaySignature
  durableNonce := none
  durableNonceAuthority := none
  blockhash := some [9]
  signOnly := signOnly
  dumpTransactionMessage := false
  dryRun := false
  yes := true
  relaySignature_requires _ := rfl
  durableNonceAuthority_requires := by decide
  signOnly_requires _ := rfl
  dumpTransactionMessage_requires dumps := Bool.noConfusion dumps
  dryRun_conflicts dry := Bool.noConfusion dry

theorem client_laws (feePayer : Platform.reference.SignerSource)
    (nonce : Except Failure Platform.reference.Nonce) :
    (client feePayer nonce).SignerLaws Toolkit.reference := by
  constructor
  · intro source name allowNullSigner signer loads allowed
    cases source with
    | pubkey address =>
        rcases allowed with refused | ⟨path, other⟩
        · rw [refused] at loads
          cases loads
        · cases other
    | other path =>
        have loads : (parse Wire.tally path).map keypair = .ok signer := loads
        cases read : parse Wire.tally path with
        | error reason =>
            rw [read] at loads
            cases loads
        | ok address =>
            rw [read] at loads
            obtain rfl := Except.ok.inj loads
            exact (keypair_signs address).verifies
  · intro address name
    exact ⟨_, rfl, rfl⟩

theorem sourceOf_pubkey (feePayer : Platform.reference.SignerSource)
    (nonce : Except Failure Platform.reference.Nonce) (address : Nat) :
    SourceOf (client feePayer nonce) (.pubkey address) address := by
  intro name allowNullSigner signer found loads named
  cases allowNullSigner with
  | false => cases loads
  | true =>
      obtain rfl := Except.ok.inj loads
      exact (Except.ok.inj named).symm

theorem sourceOf_keyFile (feePayer : Platform.reference.SignerSource)
    (nonce : Except Failure Platform.reference.Nonce) (address : Nat) :
    SourceOf (client feePayer nonce) (keyFile address) address := by
  intro name allowNullSigner signer found loads named
  rw [client_loads] at loads
  obtain rfl := Except.ok.inj loads
  exact (Except.ok.inj named).symm

theorem submitCommand_runs {source : Platform.reference.SignerSource}
    {nonce : Except Failure Platform.reference.Nonce} (relaySignature : List Text)
    (signOnly : Bool) (stands : SourceOf (client source nonce) source (50 : Nat)) :
    shared.Runs Toolkit.reference (submitCommand relaySignature signOnly)
      (client source nonce) where
  authorizationMessage := rfl
  signers := rfl
  feePayer source' given := by
    obtain rfl := Except.ok.inj given
    exact stands
  durableNonce := rfl
  authority _ _ none := nomatch none
  blockhash := rfl
  laws := client_laws _ _

/-- The fee payer's own run, which asks no node. -/
def airgapped : Client .reference := client (keyFile (50 : Nat)) (.error ["offline"])

def sharedRelay : PreparedRelay .reference :=
  ⟨authorization, execution, [((30 : Nat), signature)], [((50 : Nat), keypair 50)],
    unsigned relayMessage, []⟩

theorem shared_prepared :
    Submit.prepare Toolkit.reference (submitCommand [] true) airgapped = .ok sharedRelay := by
  obtain ⟨read, taken, verified, built⟩ := plan_ok_iff.mp shared_planned
  apply (Submit.prepare_ok_iff Toolkit.reference).mpr
  exact ⟨[], ⟨(50 : Nat), none, [((50 : Nat), keypair 50)]⟩, [9], ⟨read, taken, verified,
    ⟨[], rfl, rfl⟩, rfl, rfl, rfl, rfl, built⟩, rfl⟩

theorem shared_signed : shared.SignOnlyRun Toolkit.reference relayMessage
    (returnSignersData Toolkit.reference ⟨[paid], relayMessage⟩
      (Platform.serializeV1 relayMessage) false) := by
  refine ⟨submitCommand [] true, airgapped, ⟨[paid], relayMessage⟩,
    submitCommand_runs _ _ (sourceOf_keyFile _ _ _), rfl, ?_, rfl, rfl⟩
  rw [Submit.relay]
  refine (bind_of_ok shared_prepared).trans ?_
  rfl

/-- Another run passes that signature on and sends. -/
def sender : Client .reference := client (.pubkey (50 : Nat)) (.ok state)

def sending : SubmitCommand .reference :=
  submitCommand [signatureEntry Toolkit.reference (50 : Nat) paid] false

theorem paid_signed : signatureEntry Toolkit.reference (50 : Nat) paid ∈
    (returnSignersData Toolkit.reference ⟨[paid], relayMessage⟩
      (Platform.serializeV1 relayMessage) false).signers := by
  refine (mem_returned_signers transactionLaws ⟨[paid], relayMessage⟩ false _).mpr ?_
  exact ⟨0, paid, (50 : Nat), rfl, rfl, beq_self_eq_true _, rfl⟩

theorem sending_supplied : Supplied Toolkit.reference shared relayPlan sending sender where
  signatures entry listed := by
    obtain rfl := List.mem_singleton.mp listed
    exact ⟨_, _, shared_signed, paid_signed⟩
  feePayer := ⟨_, rfl, .inr ⟨rfl, paid, List.mem_singleton_self _⟩⟩
  authority _ _ _ none := nomatch none
  relaySigners _ listed := nomatch listed
  complete address listed := by
    have nobody : relayPlan.submitSigners = [] := by decide +kernel
    rw [nobody] at listed
    cases listed

theorem sending_online : Online Toolkit.reference shared relayPlan sending sender where
  signOnly := rfl
  dryRun := rfl
  nonces := ⟨[9], rfl⟩
  confirmed _ := rfl

end Reference

theorem relay_signing_consistent_reference :
    ∃ sent, Submit.relay Toolkit.reference Reference.sending Reference.sender =
        .ok (.sends sent Reference.nonceAccount) ∧
      sent.message = Reference.relayMessage ∧
      sent.signatures.length = sent.message.header.numRequiredSignatures.toNat ∧
      ∀ valid ∈ Toolkit.reference.verifyWithResults sent, valid = true :=
  (relay_signing_consistent Reference.messageLaws Toolkit.reference Reference.textLaws
    Reference.transactionLaws Reference.shared).2.2.2 Reference.relayPlan Reference.sending
    Reference.sender Reference.shared_accepted
    (Reference.submitCommand_runs _ _ (Reference.sourceOf_pubkey _ _ _))
    Reference.sending_supplied Reference.sending_online

end ProgrammaticSigner
