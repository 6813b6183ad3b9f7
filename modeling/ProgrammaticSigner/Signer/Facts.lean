import ProgrammaticSigner.Executor.Facts
import ProgrammaticSigner.Signer.Program

set_option autoImplicit false

/- Everything a `Submit` instruction can issue, read off its code once. -/
namespace ProgrammaticSigner

open Outcome

variable {P : Platform}

/-- The relay account at an index signs the relay transaction. -/
def relaySigns (accounts : List P.AccountView) (index : Nat) : Bool :=
  accounts[index]?.any AccountView.isSigner

/-- The signers of a signature list that gave a signature. -/
def signersWithSignature (signers : List P.Address) (signatures : List (Option P.Signature)) :
    List P.Address :=
  (signers.zip signatures).filterMap fun pair => pair.2.map fun _ => pair.1

/-- How a required signer approves: its signature verifies, or its relay account
signs in its place. -/
def Approves (messageBytes : List UInt8) (signer : P.Address) (signature : Option P.Signature)
    (relayAccount : P.AccountView) : Prop :=
  match signature with
  | some signature => P.verifyStrict signer signature messageBytes = true
  | none => relayAccount.isSigner = true

/-- The seeds with which the signer program signs for an authority's PDA. -/
def authoritySeeds (programId authority : P.Address) : List (List UInt8) :=
  [seedPrefix, P.addressWire.encode authority, [(deriveAddressAndBump programId authority).2]]

/-- The one CPI of a submission. -/
def submitCpi (programId : P.Address) (accounts : List P.AccountView)
    (signatures : List (Option P.Signature)) (message : P.Message)
    (ix : CompiledInstruction) : P.Cpi :=
  let verified := signersWithSignature message.signerKeys signatures
  ⟨⟨message.keyAt ix.programIdIndex,
    ix.accounts.map fun index =>
      ⟨message.keyAt index,
        decide (message.keyAt index ∈ verified.map (deriveAddress programId)) ||
          P.isSigner message index.toNat && relaySigns accounts index.toNat,
        P.isMaybeWritable message index.toNat⟩,
    ix.data⟩,
    verified.flatMap fun authority =>
      (ix.accounts.filter fun index =>
        message.keyAt index = deriveAddress programId authority).map
          fun _ => authoritySeeds programId authority⟩

/-- The inputs a `Submit` accepts. -/
structure Submits (accounts : List P.AccountView) (signatures : List (Option P.Signature))
    (versioned : P.VersionedMessage) (message : P.Message) (ix : CompiledInstruction) :
    Prop where
  version : versioned = .v1 message
  valid : P.validate message = .ok ()
  config : message.config = default
  single : message.instructions = [ix]
  mirrors : accounts.map AccountView.address = message.accountKeys
  allowed : ExecutorPolicy.validate (message.keyAt ix.programIdIndex) ix.data = .ok ()
  count : signatures.length = message.header.numRequiredSignatures.toNat
  approved : ∀ (index : Nat) signer signature relayAccount,
    message.signerKeys[index]? = some signer → signatures[index]? = some signature →
    accounts[index]? = some relayAccount →
    Approves (Platform.serializeV1 message) signer signature relayAccount

/-- The accounts resolved at some indexes. -/
def Resolves (accounts : List P.AccountView) (indexes : List UInt8)
    (resolved : List (ExecutorAccount P)) : Prop :=
  List.Forall₂ (fun (index : UInt8) account => account.index = index.toNat ∧
    accounts[index.toNat]? = some account.account) indexes resolved

namespace CheckedExecutorInstruction

theorem checkRelayAccounts_ok_iff {accounts : List P.AccountView} {message : P.Message}
    {value : Unit} :
    checkRelayAccounts accounts message = .ok value ↔
      accounts.map AccountView.address = message.accountKeys := by
  simp only [checkRelayAccounts, bind_ok_iff, ensure_ok_iff, forM_ok_iff, exists_and_left,
    exists_const]
  constructor
  · rintro ⟨long, short, agree⟩
    exact (zip_agree_iff (by omega)).mp agree
  · intro same
    have length : accounts.length = message.accountKeys.length := by
      rw [← same, List.length_map]
    exact ⟨by omega, by omega, (zip_agree_iff length).mpr same⟩

/-- The relay accounts at the instruction's indexes. -/
theorem tryNew_ok_iff {accounts : List P.AccountView} {message : P.Message}
    (formed : message.WellFormed) {ix : CompiledInstruction} (listed : ix ∈ message.instructions)
    {checked : CheckedExecutorInstruction P} :
    tryNew accounts message ix = .ok checked ↔
      accounts.map AccountView.address = message.accountKeys ∧
      ExecutorPolicy.validate (message.keyAt ix.programIdIndex) ix.data = .ok () ∧
      checked.programId = message.keyAt ix.programIdIndex ∧ checked.data = ix.data ∧
      Resolves accounts ix.accounts checked.accounts := by
  have program := Message.keyAt_eq (formed.programs ix listed)
  simp only [tryNew, bind_ok_iff, checkRelayAccounts_ok_iff, okOr_ok_iff, mapError_ok_iff,
    mapM_ok_iff, pure_ok_iff, program, Option.some.injEq, exists_and_left, exists_const,
    exists_eq_left']
  constructor
  · rintro ⟨mirrors, ⟨⟩, allowed, resolved, found, rfl⟩
    refine ⟨mirrors, allowed, rfl, rfl, found.imp ?_⟩
    rintro index account ⟨relay, present, rfl⟩
    exact ⟨rfl, present⟩
  · obtain ⟨programId, resolved, data⟩ := checked
    rintro ⟨mirrors, allowed, rfl, rfl, found⟩
    refine ⟨mirrors, (), allowed, resolved, found.imp ?_, rfl⟩
    rintro index account ⟨same, present⟩
    exact ⟨account.account, present, by rw [← same]⟩

end CheckedExecutorInstruction

theorem verifyAuthoritySignaturesLoop_ok_iff (messageBytes : List UInt8)
    {signers : List P.Address} {signatures : List (Option P.Signature)}
    {accounts : List P.AccountView} (count : signatures.length = signers.length)
    (room : signers.length ≤ accounts.length) {verified : List P.Address} :
    verifyAuthoritySignaturesLoop messageBytes signers signatures accounts = .ok verified ↔
      (∀ (index : Nat) signer signature relayAccount, signers[index]? = some signer →
        signatures[index]? = some signature → accounts[index]? = some relayAccount →
        Approves messageBytes signer signature relayAccount) ∧
      verified = signersWithSignature signers signatures := by
  induction signers generalizing signatures accounts verified with
  | nil =>
      obtain rfl := List.eq_nil_of_length_eq_zero count
      simp [verifyAuthoritySignaturesLoop, signersWithSignature, eq_comm]
  | cons signer signers ih =>
      obtain ⟨signature, signatures, rfl⟩ := List.exists_cons_of_length_eq_add_one count
      obtain ⟨account, accounts, rfl⟩ :=
        List.exists_cons_of_length_pos (Nat.lt_of_lt_of_le (Nat.succ_pos _) room)
      have tail {found : List P.Address} := @ih signatures accounts (Nat.succ.inj count)
        (Nat.le_of_succ_le_succ room) found
      have head : (∀ signer' signature' relayAccount, signer = signer' → signature = signature' →
          account = relayAccount → Approves messageBytes signer' signature' relayAccount) ↔
          Approves messageBytes signer signature account :=
        ⟨fun all => all _ _ _ rfl rfl rfl, by rintro approves _ _ _ rfl rfl rfl; exact approves⟩
      rw [← Nat.and_forall_add_one]
      simp only [List.getElem?_cons_zero, List.getElem?_cons_succ, Option.some.injEq, head,
        and_assoc]
      cases signature with
      | none =>
          simp only [verifyAuthoritySignaturesLoop, bind_ok_iff, ensure_ok_iff, tail, exists_const]
          exact Iff.rfl
      | some signature =>
          simp only [verifyAuthoritySignaturesLoop, bind_ok_iff, ensure_ok_iff, tail, pure_ok_iff,
            exists_const, exists_and_left, and_assoc, exists_eq_left]
          exact and_congr_right' (and_congr_right' eq_comm)

theorem verifyAuthoritySignatures_ok_iff {accounts : List P.AccountView}
    {signatures : List (Option P.Signature)} {message : P.Message} (formed : message.WellFormed)
    (mirrors : accounts.map AccountView.address = message.accountKeys)
    {verified : List P.Address} :
    verifyAuthoritySignatures accounts signatures message = .ok verified ↔
      signatures.length = message.header.numRequiredSignatures.toNat ∧
      (∀ (index : Nat) signer signature relayAccount, message.signerKeys[index]? = some signer →
        signatures[index]? = some signature → accounts[index]? = some relayAccount →
        Approves (Platform.serializeV1 message) signer signature relayAccount) ∧
      verified = signersWithSignature message.signerKeys signatures := by
  have keys : message.signerKeys.length ≤ accounts.length := by
    rw [formed.signerKeys_length, ← List.length_map AccountView.address, mirrors]
    exact formed.signers_le
  simp only [verifyAuthoritySignatures, bind_ok_iff, ensure_ok_iff, okOr_ok_iff,
    if_pos formed.signers_le, Option.some.injEq, exists_const, exists_eq_left']
  refine and_congr_right fun count => ?_
  exact verifyAuthoritySignaturesLoop_ok_iff _ (by rw [count, formed.signerKeys_length]) keys

section Invoke

variable {programId : P.Address} {accounts : List P.AccountView}
  {signatures : List (Option P.Signature)} {message : P.Message} {ix : CompiledInstruction}

theorem exists_resolves (indexes : List UInt8)
    (inside : ∀ index ∈ indexes, index.toNat < accounts.length) :
    ∃ resolved, Resolves accounts indexes resolved := by
  induction indexes with
  | nil => exact ⟨[], .nil⟩
  | cons index indexes ih =>
      obtain ⟨resolved, found⟩ := ih fun other member =>
        inside other (List.mem_cons_of_mem _ member)
      have here := inside index List.mem_cons_self
      exact ⟨⟨accounts[index.toNat], index.toNat⟩ :: resolved,
        .cons ⟨rfl, List.getElem?_eq_getElem here⟩ found⟩

theorem Resolves.getElem? {indexes : List UInt8} {resolved : List (ExecutorAccount P)}
    (found : Resolves accounts indexes resolved) {account : ExecutorAccount P}
    (member : account ∈ resolved) : accounts[account.index]? = some account.account := by
  induction found with
  | nil => cases member
  | cons here rest ih =>
      rcases List.mem_cons.mp member with rfl | member
      · exact here.1 ▸ here.2
      · exact ih member

/-- At each of its indexes the executor sees the message's own key. -/
theorem Resolves.map_eq {indexes : List UInt8} {resolved : List (ExecutorAccount P)}
    (found : Resolves accounts indexes resolved)
    (mirrors : accounts.map AccountView.address = message.accountKeys)
    (inside : ∀ index ∈ indexes, index.toNat < message.accountKeys.length) :
    resolved.map (fun account => (account.index, account.account.address,
        account.account.isSigner)) =
      indexes.map fun index =>
        (index.toNat, message.keyAt index, relaySigns accounts index.toNat) := by
  induction found with
  | nil => rfl
  | @cons index account indexes resolved here rest ih =>
      obtain ⟨same, present⟩ := here
      have key := Message.keyAt_eq (inside index List.mem_cons_self)
      rw [← mirrors, List.getElem?_map, present, Option.map_some, Option.some.injEq] at key
      rw [List.map_cons, List.map_cons,
        ih fun other member => inside other (List.mem_cons_of_mem _ member), same, key]
      simp only [relaySigns, present, Option.any_some]

theorem mem_collectAuthorizedSigners {checked : CheckedExecutorInstruction P}
    {authorities : List P.Address} {signer : AuthorizedSigner P} :
    signer ∈ collectAuthorizedSigners programId checked authorities ↔
      ∃ authority ∈ authorities, ∃ account ∈ checked.accounts,
        account.account.address = deriveAddress programId authority ∧
        signer = ⟨authority, account.index, (deriveAddressAndBump programId authority).2⟩ := by
  simp only [collectAuthorizedSigners, List.mem_flatMap, List.mem_filterMap,
    Option.ite_none_right_eq_some, Option.some.injEq, deriveAddress, @eq_comm _ signer]

/-- An account is promoted exactly when it is the PDA of a verified authority. -/
theorem promoted_eq {checked : CheckedExecutorInstruction P} {indexes : List UInt8}
    (found : Resolves accounts indexes checked.accounts) {authorities : List P.Address}
    {account : ExecutorAccount P} (member : account ∈ checked.accounts) :
    ((collectAuthorizedSigners programId checked authorities).any fun signer =>
        signer.programmaticSignerIndex == account.index) =
      decide (account.account.address ∈ authorities.map (deriveAddress programId)) := by
  rw [Bool.eq_iff_iff, List.any_eq_true, decide_eq_true_eq, List.mem_map]
  constructor
  · rintro ⟨signer, collected, same⟩
    obtain ⟨authority, verified, other, listed, derived, rfl⟩ :=
      mem_collectAuthorizedSigners.mp collected
    have index : other.index = account.index := by simpa using same
    have one := found.getElem? listed
    rw [index, found.getElem? member, Option.some.injEq] at one
    exact ⟨authority, verified, by rw [← derived, one]⟩
  · rintro ⟨authority, verified, derived⟩
    exact ⟨_, mem_collectAuthorizedSigners.mpr ⟨authority, verified, account, member,
      derived.symm, rfl⟩, by simp⟩

theorem collectAuthorizedSigners_seeds {checked : CheckedExecutorInstruction P}
    (found : Resolves accounts ix.accounts checked.accounts)
    (mirrors : accounts.map AccountView.address = message.accountKeys)
    (inside : ∀ index ∈ ix.accounts, index.toNat < message.accountKeys.length)
    (authorities : List P.Address) :
    (collectAuthorizedSigners programId checked authorities).map (fun signer =>
        [seedPrefix, P.addressWire.encode signer.authority, [signer.bumpSeed]]) =
      authorities.flatMap fun authority =>
        (ix.accounts.filter fun index =>
          message.keyAt index = deriveAddress programId authority).map
            fun _ => authoritySeeds programId authority := by
  rw [collectAuthorizedSigners, List.map_flatMap]
  refine List.flatMap_congr fun authority _ => ?_
  generalize checked.accounts = resolved at found
  generalize ix.accounts = indexes at found inside
  induction found with
  | nil => rfl
  | @cons index account indexes resolved here rest ih =>
      have key := Message.keyAt_eq (inside index List.mem_cons_self)
      rw [← mirrors, List.getElem?_map, here.2, Option.map_some, Option.some.injEq] at key
      have tail := ih fun other member => inside other (List.mem_cons_of_mem _ member)
      by_cases derived : message.keyAt index = deriveAddress programId authority
      · have found : account.account.address = (deriveAddressAndBump programId authority).1 :=
          key.trans derived
        simp only [List.filterMap_cons, List.filter_cons, if_pos found, derived, decide_true,
          if_true, List.map_cons, tail]
        rfl
      · have other : account.account.address ≠ (deriveAddressAndBump programId authority).1 :=
          fun same => derived (key.symm.trans same)
        simp only [List.filterMap_cons, List.filter_cons, if_neg other, derived, decide_false,
          Bool.false_eq_true, if_false, tail]

/-- Collecting and invoking makes the one CPI. -/
theorem invokeExecutorInstruction_eq {checked : CheckedExecutorInstruction P}
    (program : checked.programId = message.keyAt ix.programIdIndex)
    (data : checked.data = ix.data) (found : Resolves accounts ix.accounts checked.accounts)
    (mirrors : accounts.map AccountView.address = message.accountKeys)
    (inside : ∀ index ∈ ix.accounts, index.toNat < message.accountKeys.length) :
    invokeExecutorInstruction message checked (collectAuthorizedSigners programId checked
        (signersWithSignature message.signerKeys signatures)) =
      Issued.call (submitCpi programId accounts signatures message ix) := by
  have metas : (checked.accounts.map fun account =>
      (⟨account.account.address,
        ((collectAuthorizedSigners programId checked
            (signersWithSignature message.signerKeys signatures)).any fun signer =>
          signer.programmaticSignerIndex == account.index) ||
          P.isSigner message account.index && account.account.isSigner,
        P.isMaybeWritable message account.index⟩ : P.AccountMeta)) =
      (submitCpi programId accounts signatures message ix).instruction.accounts := by
    rw [List.map_congr_left fun account member => by rw [promoted_eq found member]]
    have triples := congrArg (List.map fun entry : Nat × P.Address × Bool =>
      (⟨entry.2.1, decide (entry.2.1 ∈ (signersWithSignature message.signerKeys signatures).map
          (deriveAddress programId)) || P.isSigner message entry.1 && entry.2.2,
        P.isMaybeWritable message entry.1⟩ : P.AccountMeta)) (found.map_eq mirrors inside)
    rw [List.map_map, List.map_map] at triples
    exact triples
  unfold invokeExecutorInstruction
  simp only [metas, collectAuthorizedSigners_seeds found mirrors inside, program, data]
  rfl

end Invoke

/-- An accepted submission makes its one CPI and nothing else. -/
theorem Submits.processSubmit_eq (messages : P.MessageLaws) (programId : P.Address)
    {accounts : List P.AccountView} {signatures : List (Option P.Signature)}
    {versioned : P.VersionedMessage} {message : P.Message} {ix : CompiledInstruction}
    (submits : Submits accounts signatures versioned message ix) :
    processSubmit programId accounts signatures versioned =
      ⟨[submitCpi programId accounts signatures message ix], .ok ()⟩ := by
  obtain ⟨rfl, valid, config, single, mirrors, allowed, count, approved⟩ := submits
  have formed := messages.wellFormed message valid
  have listed : ix ∈ message.instructions := single ▸ List.mem_cons_self
  have verified := (verifyAuthoritySignatures_ok_iff formed mirrors).mpr ⟨count, approved, rfl⟩
  have inside := formed.indexes ix listed
  have length : accounts.length = message.accountKeys.length := by
    rw [← mirrors, List.length_map]
  obtain ⟨resolved, found⟩ := exists_resolves ix.accounts (length.symm ▸ inside)
  have checked : CheckedExecutorInstruction.tryNew accounts message ix =
      .ok ⟨message.keyAt ix.programIdIndex, resolved, ix.data⟩ :=
    (CheckedExecutorInstruction.tryNew_ok_iff formed listed).mpr
      ⟨mirrors, allowed, rfl, rfl, found⟩
  simp only [processSubmit, valid, config, ensure, if_true, Except.mapError, Issued.lift_ok_bind,
    single, checked, verified]
  rw [invokeExecutorInstruction_eq rfl rfl found mirrors inside]
  rfl

/-- Any other input is refused before the CPI. -/
theorem processSubmit_accepts (messages : P.MessageLaws) {programId : P.Address}
    {accounts : List P.AccountView} {signatures : List (Option P.Signature)}
    {versioned : P.VersionedMessage}
    (accepted : ¬ (processSubmit programId accounts signatures versioned).Refused) :
    ∃ message ix, Submits accounts signatures versioned message ix := by
  unfold processSubmit at accepted
  split at accepted
  · rename_i message
    simp only [Issued.not_refused_bind_iff, mapError_ok_iff, ensure_ok_iff] at accepted
    obtain ⟨⟨⟩, valid, -, config, accepted⟩ := accepted
    have formed := messages.wellFormed message valid
    split at accepted
    · rename_i ix single
      have listed : ix ∈ message.instructions := single ▸ List.mem_cons_self
      simp only [Issued.not_refused_bind_iff,
        CheckedExecutorInstruction.tryNew_ok_iff formed listed] at accepted
      obtain ⟨checked, ⟨mirrors, allowed, -⟩, verified, verifies, -⟩ := accepted
      obtain ⟨count, approved, -⟩ := (verifyAuthoritySignatures_ok_iff formed mirrors).mp verifies
      exact ⟨message, ix, rfl, valid, config, single, mirrors, allowed, count, approved⟩
    · exact absurd (Issued.refused_fail _) accepted
  · exact absurd (Issued.refused_fail _) accepted

/-- A `Submit` instruction that is not refused issues an accepted submission's CPI. -/
theorem processSignerInstruction_accepts (messages : P.MessageLaws) {programId : P.Address}
    {accounts : List P.AccountView} {data : List UInt8}
    (accepted : ¬ (processSignerInstruction programId accounts data).Refused) :
    ∃ signatures message ix,
      SignerInstruction.tryFromBytes data = .ok (.submit signatures (.v1 message)) ∧
      Submits accounts signatures (.v1 message) message ix ∧
      processSignerInstruction programId accounts data =
        ⟨[submitCpi programId accounts signatures message ix], .ok ()⟩ := by
  have reached := accepted
  simp only [processSignerInstruction, Issued.not_refused_bind_iff] at reached
  obtain ⟨⟨signatures, versioned⟩, decoded, reached⟩ := reached
  obtain ⟨message, ix, submits⟩ := processSubmit_accepts messages reached
  obtain rfl := submits.version
  refine ⟨signatures, message, ix, decoded, submits, ?_⟩
  rw [processSignerInstruction, decoded, Issued.lift_ok_bind]
  exact submits.processSubmit_eq messages programId

theorem mem_signersWithSignature {signers : List P.Address}
    {signatures : List (Option P.Signature)} {signer : P.Address} :
    signer ∈ signersWithSignature signers signatures ↔
      ∃ (index : Nat) (signature : P.Signature), signers[index]? = some signer ∧
        signatures[index]? = some (some signature) := by
  rw [signersWithSignature, List.mem_filterMap]
  simp only [List.mem_iff_getElem?, List.getElem?_zip_eq_some, Prod.exists,
    Option.map_eq_some_iff]
  constructor
  · rintro ⟨found, given, ⟨index, key, entry⟩, signature, rfl, rfl⟩
    exact ⟨index, signature, key, entry⟩
  · rintro ⟨index, signature, key, entry⟩
    exact ⟨signer, some signature, ⟨index, key, entry⟩, signature, rfl, rfl⟩

theorem ExecutorPolicy.validate_ok_iff {programId : P.Address} {data : List UInt8} {value : Unit} :
    ExecutorPolicy.validate programId data = .ok value ↔
      programId = P.executorProgram ∧ ∃ rest, data = 0 :: rest := by
  simp only [ExecutorPolicy.validate, bind_ok_iff, okOr_ok_iff, ensure_ok_iff,
    allowedExecutorInstructions, List.mem_singleton, Prod.mk.injEq, executeDiscriminator]
  constructor
  · rintro ⟨discriminator, first, rfl, rfl⟩
    exact ⟨rfl, data.tail, (List.cons_head?_tail first).symm⟩
  · rintro ⟨rfl, rest, rfl⟩
    exact ⟨0, rfl, rfl, rfl⟩

namespace Reference

/-- The message that authorizes the execution, signed by the key behind the PDA. -/
def authorization : Platform.reference.Message where
  header := ⟨1, 0, 3⟩
  config := default
  lifetimeSpecifier := default
  accountKeys := [30, nonceAccount, nonceAuthority, 4, 2, 40]
  instructions := [⟨3, [2, 1, 4, 2, 5], execute.data⟩]

def signature : Platform.reference.Signature := some (30, Platform.serializeV1 authorization)

/-- The relay transaction's submission. No account of it signs. -/
def relay : Platform.reference.Instruction where
  programId := Platform.reference.signerProgram
  accounts := [⟨30, false, true⟩, ⟨nonceAccount, false, true⟩, ⟨nonceAuthority, false, true⟩,
    ⟨4, false, false⟩, ⟨2, false, false⟩, ⟨40, false, false⟩]
  data := SignerInstruction.serialize (.submit [some signature] (.v1 authorization))

theorem authorization_formed : authorization.WellFormed where
  signatures := by decide
  readonlySigned := by decide
  addresses := by decide
  header := by decide
  distinct := by decide
  programs := by simp [authorization]
  indexes := by simp [authorization]

theorem authorization_valid : Platform.reference.validate authorization = .ok () :=
  validate_ok authorization_formed

theorem relay_decoded : SignerInstruction.tryFromBytes relay.data =
    .ok (.submit [some signature] (.v1 authorization) : Platform.reference.SignerInstruction) :=
  SignerInstruction.tryFromBytes_ok_iff.mpr
    ⟨SignerInstruction.wire_fits signature_total (by decide) (messageWire_total _), rfl⟩

theorem relay_submits : Submits relay.views [some signature] (.v1 authorization) authorization
    ⟨3, [2, 1, 4, 2, 5], execute.data⟩ := by
  refine ⟨rfl, authorization_valid, rfl, rfl, rfl,
    ExecutorPolicy.validate_ok_iff.mpr ⟨rfl, _, rfl⟩, rfl, ?_⟩
  intro index signer given relayAccount key entry present
  match index with
  | 0 =>
      obtain rfl := Option.some.inj key
      obtain rfl := Option.some.inj entry
      exact beq_self_eq_true _
  | index + 1 => cases entry

/-- The submission's CPI on the reference accounts. -/
def submission : Platform.reference.Cpi :=
  submitCpi Platform.reference.signerProgram relay.views [some signature] authorization
    ⟨3, [2, 1, 4, 2, 5], execute.data⟩

theorem relay_issues : processSignerInstruction Platform.reference.signerProgram relay.views
    relay.data = ⟨[submission], .ok ()⟩ := by
  rw [processSignerInstruction, relay_decoded, Issued.lift_ok_bind]
  exact relay_submits.processSubmit_eq messageLaws _

theorem submission_permitted : submission.Permitted relay := by decide

theorem submission_carries :
    Carries submission.instruction nonceAccount nonceAuthority message :=
  ⟨rfl, rfl, rfl, by decide⟩

theorem submission_issues : processExecutorInstruction opened submission.instruction.views
    submission.instruction.data = ⟨executionCpis nonceAuthority nonceAccount message, .ok ()⟩ :=
  submission_carries.issues messageLaws message_valid rfl held rfl

end Reference

end ProgrammaticSigner
