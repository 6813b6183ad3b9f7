import ProgrammaticSigner.Cli.RelaySize

set_option autoImplicit false

/- The choices that `transaction submit` leaves: who pays, and which signers sign the relay
transaction. What they cost, and which of them can be built once one can. -/
namespace ProgrammaticSigner

open Outcome V1Transaction

variable {P : Platform}

/-- A run of `transaction submit` builds this relay transaction for the message and accepts
it. -/
def CanSubmit (K : Toolkit P) (message : P.Message) (relay : P.Transaction) : Prop :=
  ∃ command client prepared, Submit.prepare K command client = .ok prepared ∧
    prepared.message = message ∧ prepared.transaction = relay

/-- What the signers of a message cost a relay transaction, in their slots and signatures. -/
def signingCost (message : P.Message) (slot : P.Address → Option P.Signature)
    (submitSigners : List P.Address) : Nat :=
  ∑ signer ∈ message.signerKeys.toFinset,
    (slotSize (slot signer) + if signer ∈ submitSigners then 64 else 0)

/-- What a relay transaction takes besides its signers and a fee payer of its own. -/
def sharedSize (message : P.Message) : Nat :=
  fixedSize limits + 32 * (insert P.signerProgram message.accountKeys.toFinset).card +
    (4 + message.accountKeys.length + (2 + (Platform.serializeV1 message).length))

section Cost

variable {message : P.Message} {slot : P.Address → Option P.Signature}
  {submitSigners : List P.Address} {feePayer : P.Address}

theorem signingCost_eq (formed : message.WellFormed)
    (required : submitSigners ⊆ message.signerKeys) :
    signingCost message slot submitSigners =
      ((message.signerKeys.map slot).map slotSize).sum + 64 * submitSigners.toFinset.card := by
  have distinct : message.signerKeys.Nodup := formed.distinct.sublist (List.take_sublist _ _)
  have marked : message.signerKeys.toFinset.filter (· ∈ submitSigners) =
      submitSigners.toFinset := by
    ext address
    rw [Finset.mem_filter, List.mem_toFinset, List.mem_toFinset]
    exact and_iff_right_of_imp fun listed => required listed
  rw [signingCost, Finset.sum_add_distrib, ← Finset.sum_filter, marked, Finset.sum_const,
    List.sum_toFinset _ distinct, List.map_map, smul_eq_mul, mul_comm]
  rfl

/-- A fee payer that signs anyway adds nothing. -/
theorem relaySize_paid (formed : message.WellFormed)
    (required : submitSigners ⊆ message.signerKeys) (paid : feePayer ∈ submitSigners) :
    relaySize message (message.signerKeys.map slot) submitSigners feePayer =
      sharedSize message + signingCost message slot submitSigners := by
  have key : feePayer ∈ insert P.signerProgram message.accountKeys.toFinset :=
    Finset.mem_insert_of_mem (List.mem_toFinset.mpr (List.mem_of_mem_take (required paid)))
  rw [relaySize, Finset.insert_eq_self.mpr key, Finset.insert_eq_self.mpr
    (List.mem_toFinset.mpr paid), signingCost_eq formed required, sharedSize]
  omega

/-- Any other fee payer adds a signature. -/
theorem relaySize_unpaid (formed : message.WellFormed)
    (required : submitSigners ⊆ message.signerKeys) (unpaid : feePayer ∉ submitSigners) :
    sharedSize message + signingCost message slot submitSigners + 64 ≤
      relaySize message (message.signerKeys.map slot) submitSigners feePayer := by
  have keys := Finset.card_le_card
    (Finset.subset_insert feePayer (insert P.signerProgram message.accountKeys.toFinset))
  have signs := Finset.card_insert_of_notMem fun member => unpaid (List.mem_toFinset.mp member)
  rw [relaySize, signs, signingCost_eq formed required, sharedSize]
  omega

/-- One that is on the message adds nothing else. -/
theorem relaySize_listed (formed : message.WellFormed)
    (required : submitSigners ⊆ message.signerKeys) (listed : feePayer ∈ message.signerKeys) :
    relaySize message (message.signerKeys.map slot) submitSigners feePayer ≤
      sharedSize message + signingCost message slot submitSigners + 64 := by
  have key : feePayer ∈ insert P.signerProgram message.accountKeys.toFinset :=
    Finset.mem_insert_of_mem (List.mem_toFinset.mpr (List.mem_of_mem_take listed))
  have signs := Finset.card_insert_le feePayer submitSigners.toFinset
  rw [relaySize, Finset.insert_eq_self.mpr key, signingCost_eq formed required, sharedSize]
  omega

/-- Whoever pays, the signers have to be paid for. -/
theorem relaySize_ge (feePayer : P.Address) (formed : message.WellFormed)
    (required : submitSigners ⊆ message.signerKeys) :
    sharedSize message + signingCost message slot submitSigners ≤
      relaySize message (message.signerKeys.map slot) submitSigners feePayer := by
  by_cases paid : feePayer ∈ submitSigners
  · exact (relaySize_paid formed required paid).ge
  · have more := @relaySize_unpaid P message slot submitSigners feePayer formed required paid
    omega

end Cost

theorem ensureTransactionSize_ok_iff {K : Toolkit P} {name : String}
    {transaction : P.Transaction} {value : Unit} :
    ensureTransactionSize K name transaction = .ok value ↔
      ∃ bytes, K.serializeTransaction transaction = .ok bytes ∧
        bytes.length ≤ maxTransactionSize := by
  simp only [ensureTransactionSize, bind_ok_iff, context_ok_iff, ensure_ok_iff]

/-- What a submittable relay transaction was built from, whoever signed and pays. -/
structure Chosen (K : Toolkit P) (message : P.Message) (execute : ExecuteAccounts P)
    (authoritySignatures : List (P.Address × P.Signature)) (feePayer : P.Address)
    (relay : P.Transaction) : Prop where
  taken : ExecuteAccounts.tryNew K message = .ok execute
  authorities : ∀ address ∈ message.signerKeys, execute.isPdaAuthority address = true →
    (authoritySignatures.lookup address).isSome = true
  built : ∃ durableNonce blockhash, relayTransaction K message
    (authoritySlots message authoritySignatures)
    (Submit.submitSigners execute message.signerKeys authoritySignatures) feePayer durableNonce
    blockhash = .ok relay
  fits : ∃ bytes, K.serializeTransaction relay = .ok bytes ∧ bytes.length ≤ maxTransactionSize

theorem Submit.prepare_chosen {K : Toolkit P} {command : SubmitCommand P} {client : Client P}
    {prepared : PreparedRelay P} (found : Submit.prepare K command client = .ok prepared) :
    ∃ feePayer, Chosen K prepared.message prepared.execute prepared.authoritySignatures feePayer
      prepared.transaction := by
  have checked := prepare_checked found
  obtain ⟨_, loaded, blockhash, found⟩ := (Submit.prepare_ok_iff K).mp found
  have built := found.built
  simp only [Submit.buildRelay, bind_ok_iff, pure_ok_iff] at built
  obtain ⟨relay, built, _, fits, same⟩ := built
  subst same
  exact ⟨loaded.feePayer, checked.taken, checked.authorities, ⟨loaded.durableNonce, blockhash,
    built⟩, ensureTransactionSize_ok_iff.mp fits⟩

theorem Submit.submitSigners_subset (execute : ExecuteAccounts P)
    (requiredSigners : List P.Address) (authoritySignatures : List (P.Address × P.Signature)) :
    Submit.submitSigners execute requiredSigners authoritySignatures ⊆ requiredSigners :=
  List.filter_subset_self _

/-- A signer the executor uses signs the relay transaction in any case. -/
theorem Submit.mem_submitSigners_of_uses {execute : ExecuteAccounts P}
    {requiredSigners : List P.Address} {authoritySignatures : List (P.Address × P.Signature)}
    {signer : P.Address} (required : signer ∈ requiredSigners)
    (used : execute.isExecutorSigner signer = true) :
    signer ∈ Submit.submitSigners execute requiredSigners authoritySignatures := by
  apply List.mem_filter.mpr
  rw [used]
  exact ⟨required, rfl⟩

/-- An empty slot takes a byte, and a signature more than that. -/
theorem slotSize_pos (slot : Option P.Signature) : 1 ≤ slotSize slot := by
  cases slot <;> simp [slotSize]

theorem slotSize_some {slot : Option P.Signature} (signed : slot.isSome = true) :
    slotSize slot = 65 := by
  obtain ⟨signature, rfl⟩ := Option.isSome_iff_exists.mp signed
  rfl

section Others

variable {K : Toolkit P} {message : P.Message} {execute : ExecuteAccounts P}
  {authoritySignatures : List (P.Address × P.Signature)} {feePayer : P.Address}
  {relay : P.Transaction}

/-- The fee payer is no program, and the keys fit a transaction. -/
theorem Chosen.limits (messages : P.MessageLaws) (layout : K.LayoutLaws)
    (chosen : Chosen K message execute authoritySignatures feePayer relay) :
    feePayer ≠ P.signerProgram ∧
      (insert feePayer (insert P.signerProgram message.accountKeys.toFinset)).card ≤
        maxAddresses := by
  obtain ⟨durableNonce, blockhash, built⟩ := chosen.built
  exact relayTransaction_limits messages layout built

/-- It is at least as large as its parts, and fits the size limit. -/
theorem Chosen.serialized (messages : P.MessageLaws) (transactions : K.TransactionLaws)
    (layout : K.LayoutLaws) (chosen : Chosen K message execute authoritySignatures feePayer relay) :
    ∃ bytes, K.serializeTransaction relay = .ok bytes ∧ bytes.length ≤ maxTransactionSize ∧
      relaySize message (authoritySlots message authoritySignatures)
        (Submit.submitSigners execute message.signerKeys authoritySignatures) feePayer ≤
          bytes.length := by
  obtain ⟨durableNonce, blockhash, built⟩ := chosen.built
  obtain ⟨bytes, serializes, fits⟩ := chosen.fits
  have submits := Submit.submitSigners_subset execute message.signerKeys authoritySignatures
  obtain ⟨bytes', serializes', size, -⟩ := relayTransaction_size messages transactions layout
    (List.Subset.trans submits (List.take_subset _ _)) built
  obtain rfl := Except.ok.inj (serializes.symm.trans serializes')
  exact ⟨bytes, serializes, fits, size⟩

/-- At 65 bytes a slot, the most that slots take. -/
theorem slots_size_le (slots : List (Option P.Signature)) :
    (slots.map slotSize).sum ≤ 65 * slots.length := by
  have each := List.sum_le_card_nsmul (slots.map slotSize) 65 (by
    intro size member
    obtain ⟨slot, -, rfl⟩ := List.mem_map.mp member
    cases slot <;> simp [slotSize])
  rw [List.length_map, smul_eq_mul, mul_comm] at each
  exact each

/-- Where one relay transaction is submittable, a fee payer on the message can pay for any other
choice of slots. -/
theorem Chosen.other (messages : P.MessageLaws) (transactions : K.TransactionLaws)
    (layout : K.LayoutLaws) (formed : message.WellFormed)
    (chosen : Chosen K message execute authoritySignatures feePayer relay)
    (slot : P.Address → Option P.Signature) {submitSigners : List P.Address}
    (required : submitSigners ⊆ message.signerKeys) {payer : P.Address}
    (listed : payer ∈ message.signerKeys) (able : payer ≠ P.signerProgram)
    (blockhash : P.Hash) :
    ∃ transaction bytes, relayTransaction K message (message.signerKeys.map slot) submitSigners
        payer none blockhash = .ok transaction ∧
      K.serializeTransaction transaction = .ok bytes ∧
      bytes.length = relaySize message (message.signerKeys.map slot) submitSigners payer := by
  have keys := (chosen.limits messages layout).2
  obtain ⟨bytes, serializes, fits, size⟩ := chosen.serialized messages transactions layout
  have payerKey : payer ∈ insert P.signerProgram message.accountKeys.toFinset :=
    Finset.mem_insert_of_mem (List.mem_toFinset.mpr (List.mem_of_mem_take listed))
  have few : message.signerKeys.length ≤ maxSignatures := by
    rw [formed.signerKeys_length]
    exact formed.signatures
  have known := List.Subset.trans required (List.take_subset _ _)
  have slots := slots_size_le (message.signerKeys.map slot)
  rw [List.length_map] at slots
  -- The message is part of what fitted, and the slots are few.
  have data : (Platform.serializeV1 message).length ≤ maxTransactionSize := by
    apply le_trans _ fits
    apply le_trans _ size
    rw [relaySize]
    omega
  have bounds : maxTransactionSize = 4096 ∧ maxSignatures = 12 ∧ maxAddresses = 64 :=
    ⟨rfl, rfl, rfl⟩
  obtain ⟨transaction, exists_⟩ := @relayTransaction_exists P K message
    (message.signerKeys.map slot) submitSigners payer blockhash layout known able
    (by
      rw [Finset.insert_eq_self.mpr payerKey]
      exact (Finset.card_le_card (Finset.subset_insert _ _)).trans keys)
    (by
      have all : insert payer submitSigners.toFinset ⊆ message.signerKeys.toFinset := by
        apply Finset.insert_subset (List.mem_toFinset.mpr listed)
        intro signer member
        exact List.mem_toFinset.mpr (required (List.mem_toFinset.mp member))
      exact (Finset.card_le_card all).trans ((List.toFinset_card_le _).trans few))
    (formed.addresses.trans (by omega)) (by omega)
  obtain ⟨bytes', serializes', -, exact_⟩ :=
    relayTransaction_size messages transactions layout known exists_
  exact ⟨transaction, bytes', exists_, serializes', exact_ rfl⟩

/-- An entry for someone else. -/
def forOthers (K : Toolkit P) (signer : P.Address) (entry : Text) : Bool :=
  match Submit.parseSignatureEntry K entry "authority" with
  | .ok parsed => parsed.1 ≠ signer
  | .error _ => true

/-- Leaving out one signer's entries leaves out its signature alone. -/
theorem verifyAuthoritySignatures_others {signer : P.Address} {entries : List Text}
    {before after rest : List (P.Address × P.Signature)}
    (others : ∀ address, rest.lookup address =
      if address = signer then none else before.lookup address)
    (verified : Submit.verifyAuthoritySignatures K message execute entries before = .ok after) :
    ∃ found, Submit.verifyAuthoritySignatures K message execute
        (entries.filter (forOthers K signer)) rest = .ok found ∧
      ∀ address, found.lookup address =
        if address = signer then none else after.lookup address := by
  induction entries generalizing before rest with
  | nil =>
      obtain rfl := Except.ok.inj verified
      exact ⟨rest, rfl, others⟩
  | cons entry entries ih =>
      simp only [Submit.verifyAuthoritySignatures, bind_ok_iff, ensure_ok_iff] at verified
      obtain ⟨⟨address, signature⟩, parsed, _, required, _, role, _, valid, later⟩ := verified
      by_cases same : address = signer
      · rw [List.filter_cons_of_neg (by simp [forOthers, parsed, same])]
        apply ih _ later
        intro other
        rw [others, Submit.lookup_insertEntry]
        by_cases own : other = signer
        · rw [if_pos own, if_pos own]
        · rw [if_neg own, if_neg own, if_neg (same ▸ own)]
      · rw [List.filter_cons_of_pos (by simp [forOthers, parsed, same])]
        simp only [Submit.verifyAuthoritySignatures, bind_ok_iff, ensure_ok_iff]
        have inserted : ∀ other, (Submit.insertEntry address signature rest).lookup other =
            if other = signer then none
            else (Submit.insertEntry address signature before).lookup other := by
          intro other
          rw [Submit.lookup_insertEntry, Submit.lookup_insertEntry, others]
          by_cases own : other = address
          · rw [if_pos own, if_pos own, if_neg (own ▸ same)]
          · rw [if_neg own, if_neg own]
        obtain ⟨found, verifies, kept⟩ := ih inserted later
        exact ⟨found, ⟨(address, signature), parsed, (), required, (), role, (), valid, verifies⟩,
          kept⟩

end Others

/-- A machine that only has an address to pay with. -/
def addressClient (feePayer : P.Address) : Client P where
  feePayerSource := .ok (.pubkey feePayer)
  loadSigner
    | .pubkey address, _, true => .ok ⟨.ok address, false, fun _ => .error ["no key"]⟩
    | _, _, _ => .error ["no key"]
  readLine := .error ["no terminal"]
  nonceAccount _ := .error ["no node"]
  durableNonceAccount _ := .error ["no node"]
  latestBlockhash := .error ["no node"]
  sendAndConfirmTransaction _ := .error ["no node"]

/-- A sign-only run with these authority signatures and nothing else. -/
def signOnlyCommand (authorizationMessage : Text) (signers : List Text) : SubmitCommand P where
  authorizationMessage := authorizationMessage
  signers := signers
  relaySigner := []
  relaySignature := []
  durableNonce := none
  durableNonceAuthority := none
  blockhash := some default
  signOnly := true
  dumpTransactionMessage := false
  dryRun := false
  yes := false
  relaySignature_requires given := absurd rfl given
  durableNonceAuthority_requires given := by cases given
  signOnly_requires _ := rfl
  dumpTransactionMessage_requires given := by cases given
  dryRun_conflicts given := by cases given

section Cheaper

variable {K : Toolkit P}

/-- A required relay signer whose entry is left out can pay for the rest, in a run that leaves
its signature to be collected separately. -/
theorem Submit.prepare_paid (messages : P.MessageLaws) (transactions : K.TransactionLaws)
    (layout : K.LayoutLaws) {command : SubmitCommand P} {client : Client P}
    {prepared : PreparedRelay P} (found : Submit.prepare K command client = .ok prepared)
    {signer : P.Address} (required : signer ∈ prepared.message.signerKeys)
    (relays : prepared.execute.isRequiredRelaySigner signer = true)
    (able : signer ≠ P.signerProgram) {others : List (P.Address × P.Signature)}
    (verifies : Submit.verifyAuthoritySignatures K prepared.message prepared.execute
      (command.signers.filter (forOthers K signer)) [] = .ok others)
    (lookups : ∀ address, others.lookup address =
      if address = signer then none else prepared.authoritySignatures.lookup address)
    (fits : relaySize prepared.message (authoritySlots prepared.message others)
      (Submit.submitSigners prepared.execute prepared.message.signerKeys others) signer ≤
        maxTransactionSize) :
    ∃ relay bytes, CanSubmit K prepared.message relay ∧
      K.serializeTransaction relay = .ok bytes ∧
      bytes.length = relaySize prepared.message (authoritySlots prepared.message others)
        (Submit.submitSigners prepared.execute prepared.message.signerKeys others) signer := by
  obtain ⟨feePayer, chosen⟩ := Submit.prepare_chosen found
  obtain ⟨_, loaded, blockhash, builds⟩ := (Submit.prepare_ok_iff K).mp found
  have formed := messages.wellFormed _ (Decode.readAuthorizationMessage_ok K messages builds.read).1
  have submits := Submit.submitSigners_subset prepared.execute prepared.message.signerKeys others
  obtain ⟨relay, bytes, built, serializes, size⟩ := chosen.other messages transactions layout formed
    (fun address => others.lookup address) submits required able default
  have small : ensureTransactionSize K "relay transaction" relay = .ok () :=
    ensureTransactionSize_ok_iff.mpr ⟨bytes, serializes, size ▸ fits⟩
  refine ⟨relay, bytes, ?_, serializes, size⟩
  let solo : SubmitCommand P := signOnlyCommand command.authorizationMessage
    (command.signers.filter (forOthers K signer))
  refine ⟨solo, addressClient signer,
    ⟨prepared.message, prepared.execute, others, [], relay, []⟩, ?_, rfl, rfl⟩
  apply (Submit.prepare_ok_iff K).mpr
  refine ⟨[], ⟨signer, none, []⟩, default, ⟨builds.read, builds.taken, verifies, ⟨[], rfl, rfl⟩,
    rfl, rfl, ?_, rfl, ?_⟩, rfl⟩
  · apply forM_ok_iff.mpr
    intro address listed
    have unrelated : prepared.execute.isPdaAuthority address = true → address ≠ signer := by
      intro authority same
      exact ((prepared.execute.isRequiredRelaySigner_iff signer).mp relays).1 (same ▸ authority)
    have signed : (!prepared.execute.isPdaAuthority address ||
        (others.lookup address).isSome) = true := by
      rw [Bool.or_eq_true, Bool.not_eq_true']
      by_cases authority : prepared.execute.isPdaAuthority address = true
      · rw [lookups, if_neg (unrelated authority)]
        exact .inr (chosen.authorities address listed authority)
      · exact .inl (Bool.eq_false_iff.mpr authority)
    have offline : Submit.signsRelay solo prepared.message.signerKeys [] [] address = true := rfl
    simp only [Submit.checkRequiredSigner, bind_ok_iff, ensure_ok_iff]
    exact ⟨(), by rw [offline, Bool.or_true], (), signed, by rw [offline, Bool.or_true]⟩
  · rw [Submit.buildRelay]
    refine (bind_of_ok built).trans ?_
    rw [bind_of_ok small]
    rfl

end Cheaper

end ProgrammaticSigner
