import ProgrammaticSigner.Cli.NonceAdvance
import ProgrammaticSigner.Cli.WithdrawAgreement

set_option autoImplicit false

/- The relay transactions of the nonce commands: every slot of what they send is signed, and a
withdrawal through a PDA completes as its `Withdraw` does. -/
namespace ProgrammaticSigner

open Outcome V1Transaction

variable {P : Platform} {K : Toolkit P}

section Signed

/-- A transaction of one instruction, with a valid signature in every slot. -/
structure FullySigned (K : Toolkit P) (instruction : P.Instruction) (transaction : P.Transaction) :
    Prop where
  compiled : ∃ feePayer blockhash, K.tryCompileWithConfig feePayer [instruction] blockhash limits =
    .ok transaction.message
  slots : transaction.signatures.length = transaction.message.header.numRequiredSignatures.toNat
  signed : ∀ valid ∈ K.verifyWithResults transaction, valid = true

theorem relaySigners_ok {feePayer : P.LocalSigner} {address : P.Address}
    {signer : Option P.LocalSigner} {signers : List P.LocalSigner}
    (listed : NonceWithdraw.relaySigners feePayer address signer = .ok signers) :
    feePayer ∈ signers ∧ (∀ other ∈ signers, other = feePayer ∨ signer = some other) ∧
      ∀ other own, signer = some other → other.tryPubkey = .ok own → own ≠ address →
        other ∈ signers := by
  unfold NonceWithdraw.relaySigners at listed
  cases signer with
  | none =>
      obtain rfl := Except.ok.inj listed
      exact ⟨List.mem_cons_self, fun other member => .inl (List.mem_singleton.mp member),
        fun other own given => by cases given⟩
  | some signer =>
      obtain ⟨found, named, same⟩ := bind_ok_iff.mp listed
      rw [← pure_ok_iff.mp same]
      split
      · refine ⟨List.mem_cons_self, fun other member => ?_, fun other own given _ _ => ?_⟩
        · rcases List.mem_cons.mp member with payer | member
          · exact .inl payer
          · exact .inr (congrArg some (List.mem_singleton.mp member).symm)
        · exact List.mem_cons_of_mem _ (List.mem_singleton.mpr (Option.some.inj given).symm)
      · rename_i payer
        refine ⟨List.mem_cons_self, fun other member => .inl (List.mem_singleton.mp member),
          fun other own given own' different => ?_⟩
        obtain rfl := Option.some.inj given
        obtain rfl := Except.ok.inj (named.symm.trans own')
        exact absurd different payer

/-- Where each required signer signed, the check of every slot passes. -/
theorem verifyWithResults_of_valid (transactions : K.TransactionLaws)
    {transaction : P.Transaction}
    (valid : ∀ index < transaction.signatures.length, ValidSlot K transaction index) :
    ∀ passed ∈ K.verifyWithResults transaction, passed = true := by
  rw [transactions.verifies]
  intro passed listed
  obtain ⟨slot, member, rfl⟩ := List.mem_map.mp listed
  obtain ⟨index, here⟩ := List.mem_iff_getElem?.mp member
  obtain ⟨given, key⟩ := List.getElem?_zip_eq_some.mp here
  obtain ⟨inside, -⟩ := List.getElem?_eq_some_iff.mp given
  obtain ⟨own, signature, key', given', verified⟩ := valid index inside
  obtain rfl := Option.some.inj (key.symm.trans key')
  obtain rfl := Option.some.inj (given.symm.trans given')
  exact verified

/-- `send_relay_transaction` only sends what the fee payer and the signer signed completely. -/
theorem sendRelayTransaction_signed (messages : P.MessageLaws) (transactions : K.TransactionLaws)
    {client : AccountClient P} {instruction : P.Instruction} {signer : Option P.LocalSigner}
    {signature : Text}
    (payers : ∀ source payer, client.feePayerSource = .ok source →
      client.loadSigner source "fee payer" false = .ok payer → Verifies K payer)
    (sound : ∀ own, signer = some own → Verifies K own)
    (covered : ∀ address, instruction.grantsSigner address = true →
      ∃ own, signer = some own ∧ own.tryPubkey = .ok address)
    (sent : NonceWithdraw.sendRelayTransaction K client instruction signer = .ok signature) :
    ∃ transaction, FullySigned K instruction transaction ∧
      client.sendAndConfirmTransaction transaction = .ok signature := by
  simp only [NonceWithdraw.sendRelayTransaction, bind_ok_iff, context_ok_iff,
    compileMessage_ok_iff] at sent
  obtain ⟨source, sourced, payer, loaded, payerAddress, named, signers, listed, blockhash, -,
    message, ⟨compiled, valid⟩, transaction, signing, confirmed⟩ := sent
  have formed := messages.wellFormed message valid
  obtain ⟨payer_mem, only, others⟩ := relaySigners_ok listed
  obtain ⟨fills, slots⟩ := tryPartialSign_fills
    (fun other member => by
      rcases only other member with rfl | own
      · exact payers source other sourced loaded
      · exact sound other own) signing
  have same : transaction.message = message := fills.message
  have count : transaction.signatures.length = message.header.numRequiredSignatures.toNat :=
    fills.length.trans List.length_replicate
  refine ⟨transaction, ⟨⟨payerAddress, blockhash, by rw [same]; exact compiled⟩,
    same.symm ▸ count, ?_⟩, confirmed⟩
  refine verifyWithResults_of_valid transactions fun index inside => ?_
  -- The slot is the fee payer's, or of a signer that the instruction marks.
  rw [count] at inside
  obtain ⟨address, key⟩ : ∃ address, message.accountKeys[index]? = some address :=
    ⟨_, List.getElem?_eq_getElem (inside.trans_le formed.signers_le)⟩
  have required : address ∈ message.signerKeys := by
    rw [Message.signerKeys]
    exact List.mem_of_getElem? (by rw [List.getElem?_take_of_lt inside]; exact key)
  have signs : ∃ own ∈ signers, own.tryPubkey = .ok address := by
    rcases (transactions.compiles _ _ _ _ _ compiled address).mp required with rfl | marked
    · exact ⟨payer, payer_mem, named⟩
    · obtain ⟨given, among, granted⟩ := marked
      obtain rfl := List.mem_singleton.mp among
      obtain ⟨own, found, own'⟩ := covered address granted
      by_cases shared : address = payerAddress
      · exact ⟨payer, payer_mem, shared ▸ named⟩
      · exact ⟨own, others own address found own' shared, own'⟩
  obtain ⟨own, member, own'⟩ := signs
  obtain ⟨found, position, found', key', slot⟩ := slots own member
  obtain rfl := Except.ok.inj (own'.symm.trans found')
  have unique : position = index := by
    obtain ⟨room, -⟩ := List.getElem?_eq_some_iff.mp key'
    exact (List.getElem?_inj room formed.distinct).mp (key'.trans key.symm)
  exact unique ▸ slot

theorem submit_unsigned (signatures : List (Option P.Signature)) (message : P.Message)
    (address : P.Address) :
    (SignerClient.submit signatures message).grantsSigner address = false := by
  rw [Bool.eq_false_iff]
  intro signs
  obtain ⟨account, listed, -, marked⟩ := Instruction.grantsSigner_iff.mp signs
  obtain ⟨index, _, rfl⟩ := List.mem_mapIdx.mp listed
  cases marked

theorem withdraw_signer {signer nonceAccount destination address : P.Address} {lamports : UInt64}
    (signs : (NonceClient.withdraw signer nonceAccount destination lamports).grantsSigner address =
      true) : address = signer := by
  obtain ⟨account, listed, same, marked⟩ := Instruction.grantsSigner_iff.mp signs
  simp only [NonceClient.withdraw, List.mem_cons, List.not_mem_nil, or_false] at listed
  rcases listed with rfl | rfl | rfl
  · exact same.symm
  · cases marked
  · cases marked

theorem execute_signer (messages : P.MessageLaws)
    {nonceAccount nonceAuthority salt address : P.Address} {nonce : P.Hash}
    (valid : P.validate (NonceAdvance.emptyMessage nonceAuthority salt nonce) = .ok ())
    (signs : (ExecutorClient.execute nonceAccount nonceAuthority
      (NonceAdvance.emptyMessage nonceAuthority salt nonce)).grantsSigner address = true) :
    address = nonceAuthority := by
  have formed := messages.wellFormed _ valid
  rcases (ExecutorClient.execute_signer_iff messages formed address).mp
    (Instruction.grantsSigner_iff.mp signs) with same | listed
  · exact same
  · exact List.mem_singleton.mp listed

section Authority

variable {client : AccountClient P} {source : Option P.SignerSource} {authority : NonceAuthority P}

theorem loadAuthority_loads
    (loaded : NonceWithdraw.loadAuthority client source = .ok authority)
    (able : authority.canSign = true) :
    ∃ path, client.loadSigner (.other path) "nonce authority" true = .ok authority.signer := by
  cases source <;>
  · simp only [NonceWithdraw.loadAuthority, bind_ok_iff, context_ok_iff, pure_ok_iff] at loaded
    obtain ⟨given, -, signer, loads, address, -, rfl⟩ := loaded
    cases given with
    | pubkey => cases able
    | other path => exact ⟨path, loads⟩

/-- A withdrawal that no PDA signs is signed by the authority at hand. -/
theorem plan_signer {command : WithdrawCommand P} {plan : WithdrawPlan P}
    (planned : NonceWithdraw.plan K command client authority = .ok plan)
    (own : ∀ previous pda, plan.route ≠ .promoted previous pda) :
    authority.canSign = true ∧ ∀ address, plan.withdraw.grantsSigner address = true →
      address = authority.address := by
  simp only [NonceWithdraw.plan, bind_ok_iff, ensure_ok_iff, okOr_ok_iff] at planned
  obtain ⟨-, -, account, -, -, -, remaining, -, planned⟩ := planned
  split at planned
  · simp only [NonceWithdraw.planRecovery, bind_unit_ok_iff, ensure_ok_iff, pure_ok_iff] at planned
    obtain ⟨itself, -, able, rfl⟩ := planned
    exact ⟨ensure_ok_iff.mp able, fun _ signs => (withdraw_signer signs).trans itself.symm⟩
  · simp only [NonceWithdraw.planInitialized, bind_unit_ok_iff] at planned
    have rest := planned.2
    split at rest
    · obtain ⟨able, same⟩ := bind_unit_ok_iff.mp rest
      rw [← pure_ok_iff.mp same]
      exact ⟨ensure_ok_iff.mp able, fun _ signs => withdraw_signer signs⟩
    · split at rest
      · rw [← pure_ok_iff.mp rest] at own
        exact absurd rfl (own _ _)
      · cases rest

end Authority

section Sending

variable (messages : P.MessageLaws) (transactions : K.TransactionLaws) {client : AccountClient P}
  (payers : ∀ source name signer, client.loadSigner source name false = .ok signer →
    Verifies K signer)
  (keys : ∀ path name null signer, client.loadSigner (.other path) name null = .ok signer →
    Verifies K signer)
include messages transactions payers

include keys in
theorem NonceAuthority.sends {source : Option P.SignerSource} {authority : NonceAuthority P}
    (loaded : NonceWithdraw.loadAuthority client source = .ok authority)
    (able : authority.canSign = true) {instruction : P.Instruction}
    (own : ∀ address, instruction.grantsSigner address = true → address = authority.address)
    {signature : Text} (sent : NonceWithdraw.sendRelayTransaction K client instruction
      (some authority.signer) = .ok signature) :
    ∃ transaction, FullySigned K instruction transaction ∧
      client.sendAndConfirmTransaction transaction = .ok signature := by
  obtain ⟨path, loading⟩ := loadAuthority_loads loaded able
  refine sendRelayTransaction_signed messages transactions (fun _ _ _ found => payers _ _ _ found)
    (fun other same => ?_) (fun address signs => ?_) sent
  · obtain rfl := Option.some.inj same
    exact keys _ _ _ _ loading
  · rw [own address signs]
    exact ⟨_, rfl, NonceAdvance.loadAuthority_named loaded⟩

theorem submit_sends {signatures : List (Option P.Signature)} {message : P.Message}
    {signature : Text} (sent : NonceWithdraw.sendRelayTransaction K client
      (SignerClient.submit signatures message) none = .ok signature) :
    ∃ transaction, FullySigned K (SignerClient.submit signatures message) transaction ∧
      client.sendAndConfirmTransaction transaction = .ok signature := by
  refine sendRelayTransaction_signed messages transactions (fun _ _ _ found => payers _ _ _ found)
    (fun other same => by cases same) (fun address signs => ?_) sent
  rw [submit_unsigned] at signs
  cases signs

include keys in
theorem NonceAdvance.run_signed {command : AdvanceCommand P} {random : P.Address}
    {output : NonceAdvanceOutput}
    (ran : NonceAdvance.run K command client random = .ok (.sent output)) :
    ∃ authority plan instruction transaction,
      NonceWithdraw.loadAuthority client command.nonceAuthority = .ok authority ∧
      NonceAdvance.plan K command client authority random = .ok plan ∧
      (instruction = ExecutorClient.execute command.nonceAccount authority.address
          plan.executionMessage ∨
        ∃ message signature, plan.route = .promoted message ∧
          instruction = SignerClient.submit [some signature] message) ∧
      FullySigned K instruction transaction ∧
      client.sendAndConfirmTransaction transaction = .ok output.signature := by
  simp only [NonceAdvance.run, bind_ok_iff] at ran
  obtain ⟨authority, loaded, plan, planned, completed⟩ := ran
  unfold NonceAdvance.complete at completed
  cases route : plan.route with
  | direct =>
      simp only [route, bind_ok_iff, pure_ok_iff] at completed
      obtain ⟨signature, sends, same⟩ := completed
      obtain rfl := NonceAdvanceResult.sent.inj same
      obtain ⟨account, -, facts, able⟩ := NonceAdvance.plan_read planned
      have own := facts.direct route
      have valid := facts.valid
      rw [facts.message, own] at valid
      obtain ⟨transaction, signed, confirmed⟩ := NonceAuthority.sends messages transactions payers
        keys loaded (able route) (fun address signs => by
          rw [facts.message, own] at signs
          exact execute_signer messages valid signs) sends
      exact ⟨authority, plan, _, transaction, loaded, planned, .inl rfl, signed, confirmed⟩
  | promoted message =>
      simp only [route] at completed
      split at completed
      · cases pure_ok_iff.mp completed
      · simp only [bind_ok_iff, context_ok_iff, pure_ok_iff] at completed
        obtain ⟨signature, signs, text, sends, same⟩ := completed
        obtain rfl := NonceAdvanceResult.sent.inj same
        obtain ⟨transaction, signed, confirmed⟩ := submit_sends messages transactions payers sends
        exact ⟨authority, plan, _, transaction, loaded, planned,
          .inr ⟨message, signature, route, rfl⟩, signed, confirmed⟩

include keys in
theorem NonceWithdraw.run_signed {command : WithdrawCommand P} {output : NonceWithdrawOutput}
    (ran : NonceWithdraw.run K command client = .ok (.sent output)) :
    ∃ authority plan instruction transaction,
      NonceWithdraw.loadAuthority client command.nonceAuthority = .ok authority ∧
      NonceWithdraw.plan K command client authority = .ok plan ∧
      (instruction = plan.withdraw ∨ ∃ previous pda authorized signature,
        plan.route = .promoted previous pda ∧
        NonceWithdraw.authorizePromotion K command authority plan previous pda = .ok authorized ∧
        instruction = SignerClient.submit [some signature] authorized.1) ∧
      FullySigned K instruction transaction ∧
      client.sendAndConfirmTransaction transaction = .ok output.signature := by
  simp only [NonceWithdraw.run, bind_ok_iff] at ran
  obtain ⟨authority, loaded, plan, planned, completed⟩ := ran
  unfold NonceWithdraw.complete at completed
  have direct {signature : Text} (own : ∀ previous pda, plan.route ≠ .promoted previous pda)
      (sends : NonceWithdraw.sendRelayTransaction K client plan.withdraw (some authority.signer) =
        .ok signature) :=
    NonceAuthority.sends messages transactions payers keys loaded (plan_signer planned own).1
      (plan_signer planned own).2 sends
  cases route : plan.route with
  | recover =>
      simp only [route, bind_ok_iff, pure_ok_iff] at completed
      obtain ⟨signature, sends, same⟩ := completed
      obtain rfl := NonceWithdrawResult.sent.inj same
      obtain ⟨transaction, signed, confirmed⟩ := direct (by simp [route]) sends
      exact ⟨authority, plan, _, transaction, loaded, planned, .inl rfl, signed, confirmed⟩
  | direct previous =>
      simp only [route, bind_ok_iff, pure_ok_iff] at completed
      obtain ⟨signature, sends, same⟩ := completed
      obtain rfl := NonceWithdrawResult.sent.inj same
      obtain ⟨transaction, signed, confirmed⟩ := direct (by simp [route]) sends
      exact ⟨authority, plan, _, transaction, loaded, planned, .inl rfl, signed, confirmed⟩
  | promoted previous pda =>
      simp only [route, bind_ok_iff] at completed
      obtain ⟨authorized, authorizes, rest⟩ := completed
      split at rest
      · cases pure_ok_iff.mp rest
      · simp only [bind_ok_iff, context_ok_iff, pure_ok_iff] at rest
        obtain ⟨signature, signs, text, sends, same⟩ := rest
        obtain rfl := NonceWithdrawResult.sent.inj same
        obtain ⟨transaction, signed, confirmed⟩ := submit_sends messages transactions payers sends
        exact ⟨authority, plan, _, transaction, loaded, planned,
          .inr ⟨previous, pda, authorized, signature, route, authorizes, rfl⟩, signed, confirmed⟩

end Sending

/-- The nonce commands do not send a transaction that lacks a signature, whether the nonce
authority signs it, its PDA is promoted, or the authority pays the fee too. -/
theorem nonce_relays_signed (messages : P.MessageLaws) (K : Toolkit P)
    (transactions : K.TransactionLaws) (client : AccountClient P)
    (payers : ∀ source name signer, client.loadSigner source name false = .ok signer →
      Verifies K signer)
    (keys : ∀ path name null signer, client.loadSigner (.other path) name null = .ok signer →
      Verifies K signer) :
    (∀ command random output,
      NonceAdvance.run K command client random = .ok (.sent output) →
      ∃ authority plan instruction transaction,
        NonceWithdraw.loadAuthority client command.nonceAuthority = .ok authority ∧
        NonceAdvance.plan K command client authority random = .ok plan ∧
        (instruction = ExecutorClient.execute command.nonceAccount authority.address
            plan.executionMessage ∨
          ∃ message signature, plan.route = .promoted message ∧
            instruction = SignerClient.submit [some signature] message) ∧
        FullySigned K instruction transaction ∧
        client.sendAndConfirmTransaction transaction = .ok output.signature) ∧
    ∀ command output, NonceWithdraw.run K command client = .ok (.sent output) →
      ∃ authority plan instruction transaction,
        NonceWithdraw.loadAuthority client command.nonceAuthority = .ok authority ∧
        NonceWithdraw.plan K command client authority = .ok plan ∧
        (instruction = plan.withdraw ∨ ∃ previous pda authorized signature,
          plan.route = .promoted previous pda ∧
          NonceWithdraw.authorizePromotion K command authority plan previous pda = .ok authorized ∧
          instruction = SignerClient.submit [some signature] authorized.1) ∧
        FullySigned K instruction transaction ∧
        client.sendAndConfirmTransaction transaction = .ok output.signature :=
  ⟨fun _ _ _ ran => NonceAdvance.run_signed messages transactions payers keys ran,
    fun _ _ ran => NonceWithdraw.run_signed messages transactions payers keys ran⟩

end Signed

namespace Reference

theorem keypair_verifies (address : Nat) : Verifies Toolkit.reference (keypair address) := by
  intro own messageData signature named signs
  obtain rfl := Except.ok.inj named
  obtain rfl := Except.ok.inj signs
  exact beq_self_eq_true _

theorem withdrawClient_keys (path : Text) (name : String) (null : Bool)
    (signer : Platform.reference.LocalSigner)
    (loads : withdrawClient.loadSigner (.other path) name null = .ok signer) :
    Verifies Toolkit.reference signer := by
  obtain ⟨address, -, rfl⟩ := map_ok_iff.mp loads
  exact keypair_verifies address

theorem withdrawClient_payers (source : Platform.reference.SignerSource) (name : String)
    (signer : Platform.reference.LocalSigner)
    (loads : withdrawClient.loadSigner source name false = .ok signer) :
    Verifies Toolkit.reference signer := by
  cases source with
  | pubkey address => cases loads
  | other path => exact withdrawClient_keys path name false signer loads

/-- The run sent its transaction. -/
def isSent : Except Failure NonceWithdrawResult → Bool
  | .ok (.sent _) => true
  | _ => false

theorem isSent_iff {result : Except Failure NonceWithdrawResult} :
    isSent result = true ↔ ∃ output, result = .ok (.sent output) := by
  rcases result with _ | (_ | _) <;> simp [isSent]

end Reference

/-- The authority's own signature and the fee payer's, on a withdrawal of part of the balance. -/
theorem nonce_relays_signed_reference : ∃ transaction : Platform.reference.Transaction,
    FullySigned Toolkit.reference Reference.withdrawPlan.withdraw transaction := by
  obtain ⟨output, ran⟩ := Reference.isSent_iff.mp (show Reference.isSent (NonceWithdraw.run
    Toolkit.reference Reference.withdrawCommand Reference.withdrawClient) = true by decide +kernel)
  obtain ⟨authority, plan, instruction, transaction, loaded, planned, routed, signed, -⟩ :=
    (nonce_relays_signed Reference.messageLaws Toolkit.reference Reference.transactionLaws
      Reference.withdrawClient Reference.withdrawClient_payers
      Reference.withdrawClient_keys).2 _ _ ran
  obtain rfl : Reference.withdrawAuthority = authority := Except.ok.inj loaded
  obtain rfl : Reference.withdrawPlan = plan := Except.ok.inj planned
  rcases routed with rfl | ⟨_, _, _, _, route, -⟩
  · exact ⟨transaction, signed⟩
  · cases route

end ProgrammaticSigner
