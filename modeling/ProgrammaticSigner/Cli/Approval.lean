import ProgrammaticSigner.Cli.Submit

set_option autoImplicit false

/- The `Submit` instruction that `transaction submit` puts into its relay transaction is
approved by every required signer. -/
namespace ProgrammaticSigner

open Outcome V1Transaction

variable {P : Platform}

/-- The instruction that the relay transaction submits. -/
def PreparedRelay.submit (prepared : PreparedRelay P) : P.Instruction :=
  markedSubmit prepared.message (authoritySlots prepared.message prepared.authoritySignatures)
    (Submit.submitSigners prepared.execute prepared.message.signerKeys
      prepared.authoritySignatures)

theorem markedSubmit_getElem? {message : P.Message} {signatures : List (Option P.Signature)}
    {submitSigners : List P.Address} {index : Nat} {key : P.Address}
    (here : message.accountKeys[index]? = some key) :
    (markedSubmit message signatures submitSigners).accounts[index]? =
      some ⟨key, decide (key ∈ submitSigners), P.isMaybeWritable message index⟩ := by
  simp only [markedSubmit, SignerClient.submit, List.getElem?_map, List.getElem?_mapIdx, here,
    Option.map_some, Bool.false_or]

theorem markedSubmit_addresses (message : P.Message) (signatures : List (Option P.Signature))
    (submitSigners : List P.Address) :
    (markedSubmit message signatures submitSigners).accounts.map AccountMeta.pubkey =
      message.accountKeys := by
  refine Eq.trans ?_ (SignerClient.submit_addresses signatures message)
  simp only [markedSubmit, List.map_map]
  rfl

section Granted

variable {message : P.Message} {signatures : List (Option P.Signature)}
  {submitSigners : List P.Address} {accounts : List P.AccountView}
  (granted : GrantedFor (markedSubmit message signatures submitSigners) accounts)
include granted

/-- Whoever signs the relay transaction for the message signs its relay account. -/
theorem GrantedFor.signs {index : Nat} {signer : P.Address} {account : P.AccountView}
    (slot : message.signerKeys[index]? = some signer) (present : accounts[index]? = some account)
    (listed : signer ∈ submitSigners) : account.isSigner = true := by
  have key : message.accountKeys[index]? = some signer := by
    obtain ⟨inside, -⟩ := List.getElem?_eq_some_iff.mp slot
    rw [Message.signerKeys, List.length_take] at inside
    rwa [Message.signerKeys, List.getElem?_take_of_lt (by omega)] at slot
  exact granted.signers index account _ present (markedSubmit_getElem? key)
    (decide_eq_true listed)

theorem GrantedFor.relaySigned {signer : P.Address} (required : signer ∈ message.signerKeys)
    (listed : signer ∈ submitSigners) : RelaySigned accounts message signer :=
  ⟨required, fun _ _ slot present => granted.signs slot present listed⟩

end Granted

section Prepared

variable {K : Toolkit P}

theorem verifyAuthoritySignatures_valid {message : P.Message} {execute : ExecuteAccounts P}
    {entries : List Text} {before after : List (P.Address × P.Signature)}
    (sound : ∀ entry ∈ before,
      K.verify entry.1 entry.2 (Platform.serializeV1 message) = true)
    (verified : Submit.verifyAuthoritySignatures K message execute entries before = .ok after) :
    ∀ entry ∈ after, K.verify entry.1 entry.2 (Platform.serializeV1 message) = true := by
  induction entries generalizing before with
  | nil =>
      obtain rfl := Except.ok.inj verified
      exact sound
  | cons entry rest ih =>
      simp only [Submit.verifyAuthoritySignatures, bind_ok_iff, ensure_ok_iff] at verified
      obtain ⟨⟨address, signature⟩, -, -, -, -, -, -, valid, later⟩ := verified
      refine ih (fun other member => ?_) later
      rcases Submit.mem_insertEntry member with same | kept
      · rw [same]
        exact valid
      · exact sound other kept

theorem buildRelay_compiled {message : P.Message} {execute : ExecuteAccounts P}
    {authoritySignatures : List (P.Address × P.Signature)} {feePayer : P.Address}
    {durableNonce : Option (P.Address × P.Address)} {blockhash : P.Hash}
    {transaction : P.Transaction}
    (built : Submit.buildRelay K message execute authoritySignatures feePayer durableNonce
      blockhash = .ok transaction) :
    CompiledFrom K transaction.message (markedSubmit message
      (authoritySlots message authoritySignatures)
      (Submit.submitSigners execute message.signerKeys authoritySignatures)) := by
  simp only [Submit.buildRelay, relayTransaction, bind_ok_iff, compileMessage_ok_iff,
    pure_ok_iff] at built
  obtain ⟨relay, ⟨compiled, ⟨compiles, -⟩, unsent⟩, -, -, rfl⟩ := built
  subst unsent
  cases durableNonce with
  | none => exact ⟨feePayer, [], blockhash, compiles⟩
  | some pair => exact ⟨feePayer, [K.advanceNonceAccount pair.1 pair.2], blockhash, compiles⟩

/-- A run that gets to its relay transaction read the message, holds good signatures alone,
and has one of each authority. -/
structure Checked (K : Toolkit P) (command : SubmitCommand P) (prepared : PreparedRelay P) :
    Prop where
  read : Decode.readAuthorizationMessage K command.authorizationMessage = .ok prepared.message
  taken : ExecuteAccounts.tryNew K prepared.message = .ok prepared.execute
  signatures : ∀ entry ∈ prepared.authoritySignatures,
    K.verify entry.1 entry.2 (Platform.serializeV1 prepared.message) = true
  authorities : ∀ address ∈ prepared.message.signerKeys,
    prepared.execute.isPdaAuthority address = true →
    (prepared.authoritySignatures.lookup address).isSome = true
  compiled : CompiledFrom K prepared.transaction.message prepared.submit

theorem prepare_checked {command : SubmitCommand P} {client : Client P}
    {prepared : PreparedRelay P} (found : Submit.prepare K command client = .ok prepared) :
    Checked K command prepared := by
  obtain ⟨relaySignatures, loaded, blockhash, found⟩ := (Submit.prepare_ok_iff K).mp found
  refine ⟨found.read, found.taken, ?_, ?_, buildRelay_compiled found.built⟩
  · exact verifyAuthoritySignatures_valid (fun entry member => by cases member) found.verified
  · intro address required authority
    have approved := forM_ok_iff.mp found.checked address required
    simp only [Submit.checkRequiredSigner, bind_ok_iff, ensure_ok_iff] at approved
    obtain ⟨-, -, -, signed, -⟩ := approved
    rw [Bool.or_eq_true, Bool.not_eq_true'] at signed
    exact signed.resolve_left fun other => Bool.noConfusion (authority.symm.trans other)

variable {command : SubmitCommand P} {prepared : PreparedRelay P}
  (checked : Checked K command prepared)
include checked

/-- A required signer without a signature slot signs the relay transaction. -/
theorem Checked.submitSigner {address : P.Address}
    (required : address ∈ prepared.message.signerKeys)
    (unsigned : prepared.authoritySignatures.lookup address = none) :
    address ∈ Submit.submitSigners prepared.execute prepared.message.signerKeys
      prepared.authoritySignatures := by
  refine List.mem_filter.mpr ⟨required, ?_⟩
  have absent : ¬ prepared.execute.isPdaAuthority address = true := by
    intro authority
    have signed := checked.authorities address required authority
    rw [unsigned] at signed
    exact Bool.noConfusion signed
  rw [unsigned, Bool.or_eq_true, Bool.and_eq_true, prepared.execute.isRequiredRelaySigner_iff]
  by_cases uses : prepared.execute.isExecutorSigner address = true
  · exact .inl uses
  · exact .inr ⟨⟨absent, uses⟩, rfl⟩

/-- What is sent passes the signer program's own signature check. -/
theorem Checked.approved (messages : P.MessageLaws)
    (strict : ∀ address signature bytes, K.verify address signature bytes = true →
      P.verifyStrict address signature bytes = true)
    {accounts : List P.AccountView} (granted : GrantedFor prepared.submit accounts) :
    Approved accounts (authoritySlots prepared.message prepared.authoritySignatures)
      prepared.message := by
  have valid := (Decode.readAuthorizationMessage_ok K messages checked.read).1
  have formed := messages.wellFormed _ valid
  refine ⟨granted.addresses.trans (markedSubmit_addresses _ _ _), ?_, ?_⟩
  · rw [authoritySlots, List.length_map, formed.signerKeys_length]
  · intro index signer signature account slot given present
    rw [authoritySlots, List.getElem?_map, slot, Option.map_some, Option.some.injEq] at given
    cases signature with
    | some signature =>
        obtain ⟨before, after, shape, -⟩ := List.lookup_eq_some_iff.mp given
        have member : (signer, signature) ∈ prepared.authoritySignatures := by
          rw [shape]
          exact List.mem_append_right _ List.mem_cons_self
        exact strict signer signature _ (checked.signatures _ member)
    | none =>
        have listed := checked.submitSigner (List.mem_of_getElem? slot) given
        exact granted.signs slot present listed

end Prepared

end ProgrammaticSigner
