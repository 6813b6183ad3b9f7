import ProgrammaticSigner.Cli.Collected

set_option autoImplicit false

/- A relay transaction that `transaction submit` sends passes the signer program's check of
its required signers. -/
namespace ProgrammaticSigner

open Outcome V1Transaction

variable {P : Platform}

/-- The accounts a program gets for an instruction of a transaction: at its addresses, and
with the signer flag wherever the transaction is signed. -/
structure Receives (message : P.Message) (instruction : P.Instruction)
    (accounts : List P.AccountView) : Prop where
  addresses : accounts.map AccountView.address = instruction.accounts.map AccountMeta.pubkey
  signers : ∀ account ∈ accounts, account.address ∈ message.signerKeys → account.isSigner = true

section Signed

variable {K : Toolkit P}

theorem tryPartialSign_message {before after : P.Transaction} {messageData : List UInt8}
    {signers : List P.LocalSigner}
    (signed : tryPartialSign K before messageData signers = .ok after) :
    after.message = before.message := by
  induction signers generalizing before with
  | nil =>
      obtain rfl := Except.ok.inj signed
      rfl
  | cons signer rest ih =>
      simp only [tryPartialSign, bind_ok_iff] at signed
      obtain ⟨address, _, index, _, signature, _, later⟩ := signed
      exact (ih later).trans rfl

/-- A run that sends prepared the transaction, signed it, and found every slot valid. -/
theorem relay_sent {command : SubmitCommand P} {client : Client P} {sent : P.Transaction}
    {nonceAccount : P.Address}
    (reached : Submit.relay K command client = .ok (.sends sent nonceAccount)) :
    ∃ prepared, Submit.prepare K command client = .ok prepared ∧
      sent.message = prepared.transaction.message ∧
      ∀ valid ∈ K.verifyWithResults sent, valid = true := by
  obtain ⟨prepared, prepares, finishes⟩ := bind_ok_iff.mp reached
  refine ⟨prepared, prepares, ?_⟩
  unfold Submit.finish at finishes
  split at finishes
  · cases finishes
  · obtain ⟨signed, signs, rest⟩ := bind_ok_iff.mp finishes
    split at rest
    · cases rest
    · split at rest
      · cases rest
      · rename_i complete
        obtain ⟨rfl, _⟩ := SubmitStage.sends.inj (Except.ok.inj rest)
        rw [Submit.sign] at signs
        obtain ⟨_, signing⟩ := bind_unit_ok_iff.mp signs
        rw [context_ok_iff] at signing
        refine ⟨(tryPartialSign_message signing).trans rfl, ?_⟩
        intro valid listed
        by_contra invalid
        rw [Bool.not_eq_true] at invalid
        exact List.idxOf?_eq_none_iff.mp complete (invalid ▸ listed)

/-- Whoever an instruction marks signs the transaction it was compiled into. -/
theorem compiledFrom_signs (transactions : K.TransactionLaws) {message : P.Message}
    {instruction : P.Instruction} (compiled : CompiledFrom K message instruction)
    {address : P.Address} (marked : instruction.grantsSigner address = true) :
    address ∈ message.signerKeys := by
  obtain ⟨feePayer, leading, blockhash, compiles⟩ := compiled
  apply (transactions.compiles _ _ _ _ _ compiles address).mpr
  exact .inr ⟨instruction, List.mem_append_right _ (List.mem_singleton_self _), marked⟩

theorem Receives.granted (transactions : K.TransactionLaws) {message : P.Message}
    {instruction : P.Instruction} (compiled : CompiledFrom K message instruction)
    {accounts : List P.AccountView} (receives : Receives message instruction accounts) :
    GrantedFor instruction accounts := by
  refine ⟨receives.addresses, ?_⟩
  intro index account original present listed marked
  have same : account.address = original.pubkey := by
    have here := congrArg (fun addresses => addresses[index]?) receives.addresses
    simp only [List.getElem?_map, present, listed, Option.map_some] at here
    exact Option.some.inj here
  apply receives.signers account (List.mem_of_getElem? present)
  apply compiledFrom_signs transactions compiled
  rw [same]
  exact Instruction.grantsSigner_iff.mpr ⟨original, List.mem_of_getElem? listed, rfl, marked⟩

end Signed

section Entries

variable {K : Toolkit P} {message : P.Message} {execute : ExecuteAccounts P}

/-- Every `--signer` entry that was accepted is kept, next to those from before. -/
theorem verifyAuthoritySignatures_lookup {entries : List Text}
    {before after : List (P.Address × P.Signature)}
    (verified : Submit.verifyAuthoritySignatures K message execute entries before = .ok after)
    (address : P.Address) :
    (after.lookup address).isSome = true ↔ (before.lookup address).isSome = true ∨
      ∃ entry ∈ entries, ∃ signature,
        Submit.parseSignatureEntry K entry "authority" = .ok (address, signature) := by
  induction entries generalizing before with
  | nil =>
      obtain rfl := Except.ok.inj verified
      simp
  | cons entry rest ih =>
      simp only [Submit.verifyAuthoritySignatures, bind_ok_iff] at verified
      obtain ⟨⟨found, signature⟩, parsed, _, _, _, _, _, _, later⟩ := verified
      rw [ih later, Submit.lookup_insertEntry, List.exists_mem_cons_iff, parsed]
      by_cases same : address = found
      · simp [same]
      · simp [same, Ne.symm same]

/-- A required signer with an entry is one of those whose signatures `Submit` carries. -/
theorem mem_authoritySlots {authoritySignatures : List (P.Address × P.Signature)}
    {address : P.Address} (required : address ∈ message.signerKeys)
    (given : (authoritySignatures.lookup address).isSome = true) :
    address ∈ signersWithSignature message.signerKeys
      (authoritySlots message authoritySignatures) := by
  obtain ⟨signature, found⟩ := Option.isSome_iff_exists.mp given
  obtain ⟨index, here⟩ := List.mem_iff_getElem?.mp required
  apply mem_signersWithSignature.mpr
  refine ⟨index, signature, here, ?_⟩
  rw [authoritySlots, List.getElem?_map, here, Option.map_some, found]

end Entries

/-- What the signer program makes of the `Submit` of a sent relay transaction. -/
structure ApprovedOnChain (K : Toolkit P) (command : SubmitCommand P)
    (prepared : PreparedRelay P) (sent : P.Transaction) (signatures : List (Option P.Signature))
    (accounts : List P.AccountView) (verified : List P.Address) : Prop where
  passes : verifyAuthoritySignatures accounts signatures prepared.message = .ok verified
  count : signatures.length = prepared.message.header.numRequiredSignatures.toNat
  verifies : ∀ (index : Nat) signer signature, prepared.message.signerKeys[index]? = some signer →
    signatures[index]? = some (some signature) →
    P.verifyStrict signer signature (Platform.serializeV1 prepared.message) = true
  signs : ∀ (index : Nat) signer, prepared.message.signerKeys[index]? = some signer →
    signatures[index]? = some none → signer ∈ sent.message.signerKeys ∧
      ∃ account, accounts[index]? = some account ∧ account.address = signer ∧
        account.isSigner = true
  authorities : ∀ address ∈ prepared.message.signerKeys,
    prepared.execute.isPdaAuthority address = true → address ∈ verified
  requiredRelaySigners : ∀ address ∈ prepared.message.signerKeys,
    prepared.execute.isRequiredRelaySigner address = true →
    (∃ entry ∈ command.signers, ∃ signature,
      Submit.parseSignatureEntry K entry "authority" = .ok (address, signature)) →
    address ∈ verified

section Approved

variable {K : Toolkit P} {command : SubmitCommand P} {client : Client P}
  {prepared : PreparedRelay P}

theorem prepare_approvedOnChain (messages : P.MessageLaws) (transactions : K.TransactionLaws)
    (strict : ∀ address signature bytes,
      K.verify address signature bytes = P.verifyStrict address signature bytes)
    (found : Submit.prepare K command client = .ok prepared) {sent : P.Transaction}
    (same : sent.message = prepared.transaction.message) {accounts : List P.AccountView}
    (receives : Receives sent.message prepared.submit accounts) :
    ∃ verified, ApprovedOnChain K command prepared sent
      (authoritySlots prepared.message prepared.authoritySignatures) accounts verified := by
  have checked := prepare_checked found
  have compiled : CompiledFrom K sent.message prepared.submit := same ▸ checked.compiled
  have formed := messages.wellFormed _
    (Decode.readAuthorizationMessage_ok K messages checked.read).1
  have approved := checked.approved messages
    (fun address signature bytes verifies => (strict address signature bytes).symm.trans verifies)
    (receives.granted transactions compiled)
  have passes := (verifyAuthoritySignatures_ok_iff formed approved.mirrors).mpr
    ⟨approved.count, approved.approved, rfl⟩
  have length : accounts.length = prepared.message.accountKeys.length := by
    rw [← approved.mirrors, List.length_map]
  have slot (index : Nat) (signer : P.Address)
      (key : prepared.message.signerKeys[index]? = some signer) :
      ∃ account, accounts[index]? = some account ∧ account.address = signer := by
    obtain ⟨inside, _⟩ := List.getElem?_eq_some_iff.mp key
    rw [formed.signerKeys_length] at inside
    rw [Message.signerKeys, List.getElem?_take_of_lt inside, ← approved.mirrors,
      List.getElem?_map] at key
    exact Option.map_eq_some_iff.mp key
  refine ⟨_, passes, approved.count, ?_, ?_, ?_, ?_⟩
  · intro index signer signature key entry
    obtain ⟨account, present, _⟩ := slot index signer key
    exact approved.approved index signer (some signature) account key entry present
  · intro index signer key entry
    obtain ⟨account, present, address⟩ := slot index signer key
    refine ⟨?_, account, present, address,
      approved.approved index signer none account key entry present⟩
    apply compiledFrom_signs transactions compiled
    apply (markedSubmit_signer _ signer).mpr
    · rw [authoritySlots, List.getElem?_map, key, Option.map_some, Option.some.injEq] at entry
      exact checked.submitSigner (List.mem_of_getElem? key) entry
    · exact fun other listed => List.mem_of_mem_take (List.mem_of_mem_filter listed)
  · intro address required authority
    exact mem_authoritySlots required (checked.authorities address required authority)
  · intro address required _ entry
    apply mem_authoritySlots required
    obtain ⟨relaySignatures, loaded, blockhash, prepares⟩ := (Submit.prepare_ok_iff K).mp found
    exact (verifyAuthoritySignatures_lookup prepares.verified address).mpr (.inr entry)

end Approved

/-- The checks of `transaction submit` imply approval on chain: whenever it sends, the `Submit`
that it sends passes the signer program's check of the required signers, on any accounts that
carry the flags of the transaction's signers. -/
theorem sent_submit_approved (messages : P.MessageLaws) (signaturesFit : P.signatureWire.Total)
    (K : Toolkit P) (transactions : K.TransactionLaws)
    (strict : ∀ address signature bytes,
      K.verify address signature bytes = P.verifyStrict address signature bytes)
    (command : SubmitCommand P) (client : Client P) (sent : P.Transaction)
    (nonceAccount : P.Address)
    (reached : Submit.relay K command client = .ok (.sends sent nonceAccount)) :
    ∃ prepared signatures, Submit.prepare K command client = .ok prepared ∧
      CompiledFrom K sent.message prepared.submit ∧
      SignerInstruction.tryFromBytes prepared.submit.data =
        .ok (.submit signatures (.v1 prepared.message)) ∧
      ∀ accounts, Receives sent.message prepared.submit accounts →
        ∃ verified, ApprovedOnChain K command prepared sent signatures accounts verified := by
  obtain ⟨prepared, found, same, _⟩ := relay_sent reached
  have checked := prepare_checked found
  have valid := (Decode.readAuthorizationMessage_ok K messages checked.read).1
  have formed := messages.wellFormed _ valid
  have few := formed.signatures
  rw [maxSignatures] at few
  refine ⟨prepared, authoritySlots prepared.message prepared.authoritySignatures, found,
    same ▸ checked.compiled, ?_, ?_⟩
  · apply SignerInstruction.tryFromBytes_ok_iff.mpr
    refine ⟨SignerInstruction.wire_fits signaturesFit ?_ (messages.serializes _ valid), rfl⟩
    rw [authoritySlots, List.length_map, formed.signerKeys_length]
    omega
  · intro accounts receives
    exact prepare_approvedOnChain messages transactions strict found same receives

/-- The reference relay, once its fee payer signed elsewhere, is sent and approved. -/
theorem sent_submit_approved_reference : ∃ sent prepared signatures,
    CompiledFrom Toolkit.reference sent.message prepared.submit ∧
    SignerInstruction.tryFromBytes prepared.submit.data =
      .ok (.submit signatures (.v1 prepared.message)) ∧
    ∀ accounts, Receives sent.message prepared.submit accounts →
      ∃ verified, ApprovedOnChain Toolkit.reference Reference.sending prepared sent signatures
        accounts verified := by
  obtain ⟨sent, reached, _⟩ := relay_sends Reference.messageLaws Reference.textLaws
    Reference.transactionLaws Reference.shared_accepted
    (Reference.submitCommand_runs _ _ (Reference.sourceOf_pubkey _ _ _))
    Reference.sending_supplied Reference.sending_online
  obtain ⟨prepared, signatures, _, compiled, decoded, approved⟩ :=
    sent_submit_approved Reference.messageLaws Reference.signature_total Toolkit.reference
      Reference.transactionLaws (fun _ _ _ => rfl) _ _ sent _ reached
  exact ⟨sent, prepared, signatures, compiled, decoded, approved⟩

end ProgrammaticSigner
