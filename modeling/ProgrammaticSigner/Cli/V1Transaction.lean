import ProgrammaticSigner.Cli.Decode

set_option autoImplicit false

/- Building, measuring and signing the v1 transaction that relays a `Submit`. -/
namespace ProgrammaticSigner

open Outcome

/-- What signing without submitting prints. -/
structure CliSignOnlyData where
  blockhash : Text
  message : Option Text
  signers : List Text
  absent : List Text
  badSig : List Text
  deriving DecidableEq

namespace V1Transaction

/-- Runtime maximum compute unit limit. -/
def maxComputeUnitLimit : UInt32 := 1400000

/-- Runtime maximum loaded accounts data size, in bytes. -/
def maxLoadedAccountsDataSize : UInt32 := 64 * 1024 * 1024

/-- Fixed, so that every run builds the same relay message. -/
def limits : TransactionConfig := ⟨none, some maxComputeUnitLimit, some maxLoadedAccountsDataSize, none⟩

/-- `v1::MAX_TRANSACTION_SIZE` -/
def maxTransactionSize : Nat := 4096

variable {P : Platform} (K : Toolkit P)

/-- Compile and validate a v1 message. -/
def compileMessage (feePayer : P.Address) (instructions : List P.Instruction)
    (blockhash : P.Hash) : Except Failure P.Message := do
  let message ← context "failed to compile transaction message"
    ((K.tryCompileWithConfig feePayer instructions blockhash limits).mapError
      fun reason => [K.describeCompile reason])
  context "invalid transaction message"
    ((P.validate message).mapError fun reason => [K.describeMessage reason])
  return message

/-- The message of a transaction that ends with an instruction. -/
def CompiledFrom (message : P.Message) (instruction : P.Instruction) : Prop :=
  ∃ feePayer leading blockhash,
    K.tryCompileWithConfig feePayer (leading ++ [instruction]) blockhash limits = .ok message

/-- Every required signature of a message, none of them given yet. -/
def unsigned (message : P.Message) : P.Transaction :=
  ⟨List.replicate message.header.numRequiredSignatures.toNat default, message⟩

/-- The client's `Submit`, with the accounts of the relay transaction's signers marked. -/
def markedSubmit (authorizationMessage : P.Message) (signatures : List (Option P.Signature))
    (submitSigners : List P.Address) : P.Instruction :=
  let submit := SignerClient.submit signatures authorizationMessage
  { submit with
    accounts := submit.accounts.map fun account =>
      { account with isSigner := account.isSigner || decide (account.pubkey ∈ submitSigners) } }

/-- Build the unsigned relay transaction that submits an authorization message. A durable
nonce is advanced first. -/
def relayTransaction (authorizationMessage : P.Message) (signatures : List (Option P.Signature))
    (submitSigners : List P.Address) (feePayer : P.Address)
    (durableNonce : Option (P.Address × P.Address)) (blockhash : P.Hash) :
    Except Failure P.Transaction := do
  let submit := markedSubmit authorizationMessage signatures submitSigners
  let instructions := match durableNonce with
    | some (address, authority) => [K.advanceNonceAccount address authority, submit]
    | none => [submit]
  let message ← compileMessage K feePayer instructions blockhash
  return unsigned message

/-- Check that a transaction with its signatures fits the size limit. -/
def ensureTransactionSize (name : String) (transaction : P.Transaction) :
    Except Failure Unit := do
  let bytes ← context s!"failed to serialize {name}" (K.serializeTransaction transaction)
  let size := bytes.length
  ensure (size ≤ maxTransactionSize)
    [s!"{name} is {size} bytes, which exceeds the v1 transaction size limit of " ++
      s!"{maxTransactionSize} bytes"]

/-- The signature slot of a transaction signer. -/
def signerIndex (transaction : P.Transaction) (address : P.Address) : Option Nat :=
  (transaction.message.accountKeys.take transaction.signatures.length).idxOf? address

/-- Put each signature into its slot. -/
def fillSlots (transaction : P.Transaction) (placed : List (Nat × P.Signature)) :
    P.Transaction :=
  { transaction with
    signatures := placed.foldl (fun slots entry => slots.set entry.1 entry.2)
      transaction.signatures }

/-- Sign with each signer in turn, leaving the other slots unchanged. -/
def tryPartialSign (transaction : P.Transaction) (messageData : List UInt8) :
    List P.LocalSigner → Except Failure P.Transaction
  | [] => .ok transaction
  | signer :: rest => do
      let address ← signer.tryPubkey
      let index ← okOr (signerIndex transaction address)
        [s!"{K.display address} is not a relay transaction signer"]
      let signature ← signer.trySignMessage messageData
      tryPartialSign { transaction with signatures := transaction.signatures.set index signature }
        messageData rest

/-- An address and a signature as the command line writes them. -/
def signatureEntry (address : P.Address) (signature : P.Signature) : Text :=
  K.showAddress address ++ '=' :: K.showSignature signature

/-- Sort the slots of a transaction by what is in them. -/
def sortSlots : List ((P.Signature × P.Address) × Bool) → CliSignOnlyData → CliSignOnlyData
  | [], data => data
  | ((signature, address), valid) :: rest, data =>
      if valid then
        sortSlots rest { data with signers := data.signers ++ [signatureEntry K address signature] }
      else if signature = default then
        sortSlots rest { data with absent := data.absent ++ [K.showAddress address] }
      else
        sortSlots rest { data with badSig := data.badSig ++ [K.showAddress address] }

def returnSignersData (transaction : P.Transaction) (messageData : List UInt8)
    (dumpTransactionMessage : Bool) : CliSignOnlyData :=
  sortSlots K ((transaction.signatures.zip transaction.message.accountKeys).zip
      (K.verifyWithResults transaction))
    { blockhash := K.showHash transaction.message.lifetimeSpecifier
      message := if dumpTransactionMessage then some (K.encodeBase64 messageData) else none
      signers := []
      absent := []
      badSig := [] }

theorem compileMessage_ok_iff {feePayer : P.Address} {instructions : List P.Instruction}
    {blockhash : P.Hash} {message : P.Message} :
    compileMessage K feePayer instructions blockhash = .ok message ↔
      K.tryCompileWithConfig feePayer instructions blockhash limits = .ok message ∧
        P.validate message = .ok () := by
  simp only [compileMessage, bind_ok_iff, context_ok_iff, mapError_ok_iff, pure_ok_iff]
  constructor
  · rintro ⟨found, compiled, _, valid, same⟩
    subst same
    exact ⟨compiled, valid⟩
  · rintro ⟨compiled, valid⟩
    exact ⟨message, compiled, (), valid, rfl⟩

/-- A slot holds a signature of its own key over the message. -/
def ValidSlot (transaction : P.Transaction) (index : Nat) : Prop :=
  ∃ address signature, transaction.message.accountKeys[index]? = some address ∧
    transaction.signatures[index]? = some signature ∧
    K.verify address signature (Platform.serializeV1 transaction.message) = true

/-- Signing touches a slot only to leave a valid signature in it. -/
structure Fills (before after : P.Transaction) : Prop where
  message : after.message = before.message
  length : after.signatures.length = before.signatures.length
  slots : ∀ index, after.signatures[index]? = before.signatures[index]? ∨ ValidSlot K after index

/-- A signature that a signer returns verifies under its own address. -/
def Verifies (signer : P.LocalSigner) : Prop :=
  ∀ address messageData signature, signer.tryPubkey = .ok address →
    signer.trySignMessage messageData = .ok signature →
    K.verify address signature messageData = true

/-- A key at hand: it signs whatever it is given. -/
def Signs (signer : P.LocalSigner) (address : P.Address) : Prop :=
  signer.tryPubkey = .ok address ∧ ∀ messageData, ∃ signature,
    signer.trySignMessage messageData = .ok signature ∧
    K.verify address signature messageData = true

section Slots

variable {K} {before middle after transaction : P.Transaction}

theorem Signs.verifies {signer : P.LocalSigner} {address : P.Address}
    (signs : Signs K signer address) : Verifies K signer := by
  intro found messageData signature named returned
  obtain ⟨own, all⟩ := signs
  obtain rfl := Except.ok.inj (own.symm.trans named)
  obtain ⟨given, same, verified⟩ := all messageData
  obtain rfl := Except.ok.inj (same.symm.trans returned)
  exact verified

theorem Fills.refl (transaction : P.Transaction) : Fills K transaction transaction :=
  ⟨rfl, rfl, fun _ => .inl rfl⟩

theorem Fills.valid (fills : Fills K before after) {index : Nat}
    (valid : ValidSlot K before index) : ValidSlot K after index := by
  rcases fills.slots index with unchanged | replaced
  · obtain ⟨address, signature, key, given, verified⟩ := valid
    refine ⟨address, signature, ?_, unchanged.trans given, ?_⟩
    · rw [fills.message]
      exact key
    · rw [fills.message]
      exact verified
  · exact replaced

theorem Fills.trans (first : Fills K before middle) (second : Fills K middle after) :
    Fills K before after := by
  refine ⟨second.message.trans first.message, second.length.trans first.length, fun index => ?_⟩
  rcases second.slots index with unchanged | replaced
  · rcases first.slots index with same | filled
    · exact .inl (unchanged.trans same)
    · exact .inr (second.valid filled)
  · exact .inr replaced

theorem signerIndex_some {address : P.Address} {index : Nat}
    (found : signerIndex transaction address = some index) :
    transaction.message.accountKeys[index]? = some address ∧
      index < transaction.signatures.length := by
  obtain ⟨inside, same, -⟩ := List.idxOf?_eq_some_iff.mp found
  rw [List.length_take] at inside
  rw [List.getElem_take] at same
  exact ⟨List.getElem?_eq_some_iff.mpr ⟨by omega, same⟩, by omega⟩

theorem signerIndex_exists {address : P.Address}
    (signer : address ∈ transaction.message.accountKeys.take transaction.signatures.length) :
    ∃ index, signerIndex transaction address = some index :=
  Option.isSome_iff_exists.mp (List.isSome_idxOf?.mpr signer)

/-- One signature in its signer's slot. -/
theorem set_fills {address : P.Address} {signature : P.Signature} {index : Nat}
    (key : transaction.message.accountKeys[index]? = some address)
    (inside : index < transaction.signatures.length)
    (verified : K.verify address signature (Platform.serializeV1 transaction.message) = true) :
    Fills K transaction
        { transaction with signatures := transaction.signatures.set index signature } ∧
      ValidSlot K { transaction with signatures := transaction.signatures.set index signature }
        index := by
  have here : ValidSlot K
      { transaction with signatures := transaction.signatures.set index signature } index :=
    ⟨address, signature, key, List.getElem?_set_self inside, verified⟩
  refine ⟨⟨rfl, List.length_set, fun other => ?_⟩, here⟩
  by_cases same : index = other
  · exact .inr (same ▸ here)
  · exact .inl (List.getElem?_set_ne same)

theorem fillSlots_fills {placed : List (Nat × P.Signature)}
    (sound : ∀ entry ∈ placed, ∃ address,
      transaction.message.accountKeys[entry.1]? = some address ∧
      entry.1 < transaction.signatures.length ∧
      K.verify address entry.2 (Platform.serializeV1 transaction.message) = true) :
    Fills K transaction (fillSlots transaction placed) ∧
      ∀ entry ∈ placed, ValidSlot K (fillSlots transaction placed) entry.1 := by
  induction placed generalizing transaction with
  | nil => exact ⟨Fills.refl transaction, fun entry member => by cases member⟩
  | cons entry rest ih =>
      obtain ⟨address, key, inside, verified⟩ := sound entry List.mem_cons_self
      have first := set_fills key inside verified
      have others := @ih
        { transaction with signatures := transaction.signatures.set entry.1 entry.2 }
        fun later member => by
          obtain ⟨address, key, inside, verified⟩ := sound later (List.mem_cons_of_mem _ member)
          exact ⟨address, key, by rw [List.length_set]; exact inside, verified⟩
      refine ⟨first.1.trans others.1, fun later member => ?_⟩
      rcases List.mem_cons.mp member with same | member
      · rw [same]
        exact others.1.valid first.2
      · exact others.2 later member

/-- Signers that return good signatures leave a valid signature in each of their slots. -/
theorem tryPartialSign_fills {signers : List P.LocalSigner}
    (sound : ∀ signer ∈ signers, Verifies K signer)
    (signed : tryPartialSign K transaction (Platform.serializeV1 transaction.message) signers =
      .ok after) :
    Fills K transaction after ∧ ∀ signer ∈ signers, ∃ address index,
      signer.tryPubkey = .ok address ∧
      transaction.message.accountKeys[index]? = some address ∧ ValidSlot K after index := by
  induction signers generalizing transaction with
  | nil =>
      obtain rfl := Except.ok.inj signed
      exact ⟨Fills.refl transaction, fun signer member => by cases member⟩
  | cons signer rest ih =>
      simp only [tryPartialSign, bind_ok_iff, okOr_ok_iff] at signed
      obtain ⟨address, named, index, found, signature, returned, later⟩ := signed
      have slot := signerIndex_some found
      have verified := sound signer List.mem_cons_self address _ signature named returned
      have first := set_fills slot.1 slot.2 verified
      have others := ih (fun other member => sound other (List.mem_cons_of_mem _ member)) later
      refine ⟨first.1.trans others.1, fun other member => ?_⟩
      rcases List.mem_cons.mp member with same | member
      · rw [same]
        exact ⟨address, index, named, slot.1, others.1.valid first.2⟩
      · exact others.2 other member

/-- Keys of the transaction's own signers all get to sign. -/
theorem tryPartialSign_exists {messageData : List UInt8} {signers : List P.LocalSigner}
    (able : ∀ signer ∈ signers, ∃ address, Signs K signer address ∧
      address ∈ transaction.message.accountKeys.take transaction.signatures.length) :
    ∃ after, tryPartialSign K transaction messageData signers = .ok after := by
  induction signers generalizing transaction with
  | nil => exact ⟨transaction, rfl⟩
  | cons signer rest ih =>
      obtain ⟨address, ⟨named, all⟩, member⟩ := able signer List.mem_cons_self
      obtain ⟨index, found⟩ := signerIndex_exists member
      obtain ⟨signature, returned, -⟩ := all messageData
      have slot : okOr (signerIndex transaction address)
          [s!"{K.display address} is not a relay transaction signer"] = .ok index :=
        okOr_ok_iff.mpr found
      rw [tryPartialSign, bind_of_ok named, bind_of_ok slot, bind_of_ok returned]
      refine ih fun other among => ?_
      obtain ⟨key, signs, listed⟩ := able other (List.mem_cons_of_mem _ among)
      exact ⟨key, signs, by rw [List.length_set]; exact listed⟩

end Slots

/-- What a sign-only run says of a transaction: each signer either signed, with a signature
that verifies, or is absent. -/
structure Sorted (message : P.Message) (data : CliSignOnlyData) : Prop where
  signers : ∀ entry ∈ data.signers, ∃ address ∈ message.signerKeys, ∃ signature,
    entry = signatureEntry K address signature ∧
    K.verify address signature (Platform.serializeV1 message) = true
  absent : ∀ entry ∈ data.absent, ∃ address ∈ message.signerKeys, entry = K.showAddress address
  badSig : data.badSig = []
  once : ∀ address ∈ message.signerKeys,
    Xor (∃ signature, signatureEntry K address signature ∈ data.signers)
      (K.showAddress address ∈ data.absent)

section Sorting

variable {K}

theorem sortSlots_eq (slots : List ((P.Signature × P.Address) × Bool)) (data : CliSignOnlyData) :
    sortSlots K slots data =
      { data with
        signers := data.signers ++ (slots.filter fun slot => slot.2).map
          fun slot => signatureEntry K slot.1.2 slot.1.1
        absent := data.absent ++ (slots.filter fun slot => !slot.2 && slot.1.1 == default).map
          fun slot => K.showAddress slot.1.2
        badSig := data.badSig ++ (slots.filter fun slot => !slot.2 && slot.1.1 != default).map
          fun slot => K.showAddress slot.1.2 } := by
  induction slots generalizing data with
  | nil => simp [sortSlots]
  | cons slot rest ih =>
      obtain ⟨⟨signature, address⟩, valid⟩ := slot
      cases valid with
      | true => simp [sortSlots, ih]
      | false =>
          by_cases empty : signature = default
          · simp [sortSlots, ih, empty]
          · simp [sortSlots, ih, empty]

/-- The slots of a transaction, each with what its signature's check says. -/
theorem mem_slots (transactions : K.TransactionLaws) (transaction : P.Transaction)
    (slot : (P.Signature × P.Address) × Bool) :
    slot ∈ (transaction.signatures.zip transaction.message.accountKeys).zip
        (K.verifyWithResults transaction) ↔
      ∃ index : Nat, transaction.signatures[index]? = some slot.1.1 ∧
        transaction.message.accountKeys[index]? = some slot.1.2 ∧
        slot.2 = K.verify slot.1.2 slot.1.1 (Platform.serializeV1 transaction.message) := by
  rw [transactions.verifies, ← List.map_prod_left_eq_zip, List.mem_map]
  constructor
  · rintro ⟨pair, among, same⟩
    obtain ⟨index, found⟩ := List.mem_iff_getElem?.mp among
    obtain ⟨given, key⟩ := List.getElem?_zip_eq_some.mp found
    rw [← same]
    exact ⟨index, given, key, rfl⟩
  · rintro ⟨index, given, key, checked⟩
    refine ⟨slot.1, List.mem_iff_getElem?.mpr
      ⟨index, List.getElem?_zip_eq_some.mpr ⟨given, key⟩⟩, ?_⟩
    rw [← checked]

theorem signatureEntry_inj (text : K.TextLaws) {address other : P.Address}
    {signature given : P.Signature}
    (same : signatureEntry K address signature = signatureEntry K other given) :
    address = other ∧ signature = given := by
  have parts := splitOnce_append (K.showSignature signature) (text.address_plain address)
  have parts' := splitOnce_append (K.showSignature given) (text.address_plain other)
  unfold signatureEntry at same
  rw [same, parts', Option.some.injEq, Prod.mk.injEq] at parts
  have address' := congrArg K.parseAddress parts.1
  have signature' := congrArg K.parseSignature parts.2
  rw [text.address, text.address] at address'
  rw [text.signature, text.signature] at signature'
  exact ⟨(Except.ok.inj address').symm, (Except.ok.inj signature').symm⟩

section Data

variable (transactions : K.TransactionLaws) (transaction : P.Transaction) (dump : Bool)
include transactions

theorem mem_returned_signers (entry : Text) :
    entry ∈ (returnSignersData K transaction (Platform.serializeV1 transaction.message)
        dump).signers ↔
      ∃ (index : Nat) (signature : P.Signature) (address : P.Address),
        transaction.signatures[index]? = some signature ∧
        transaction.message.accountKeys[index]? = some address ∧
        K.verify address signature (Platform.serializeV1 transaction.message) = true ∧
        signatureEntry K address signature = entry := by
  rw [returnSignersData, sortSlots_eq]
  show entry ∈ List.map _ _ ↔ _
  simp only [List.mem_map, List.mem_filter, mem_slots transactions]
  constructor
  · rintro ⟨slot, ⟨⟨index, given, key, checked⟩, valid⟩, same⟩
    exact ⟨index, _, _, given, key, checked.symm.trans valid, same⟩
  · rintro ⟨index, signature, address, given, key, verified, same⟩
    exact ⟨((signature, address), true), ⟨⟨index, given, key, verified.symm⟩, rfl⟩, same⟩

theorem mem_returned_absent (entry : Text) :
    entry ∈ (returnSignersData K transaction (Platform.serializeV1 transaction.message)
        dump).absent ↔
      ∃ (index : Nat) (address : P.Address),
        transaction.signatures[index]? = some default ∧
        transaction.message.accountKeys[index]? = some address ∧
        K.verify address default (Platform.serializeV1 transaction.message) = false ∧
        K.showAddress address = entry := by
  rw [returnSignersData, sortSlots_eq]
  show entry ∈ List.map _ _ ↔ _
  simp only [List.mem_map, List.mem_filter, mem_slots transactions, Bool.and_eq_true,
    Bool.not_eq_true', beq_iff_eq]
  constructor
  · rintro ⟨slot, ⟨⟨index, given, key, checked⟩, invalid, empty⟩, same⟩
    rw [empty] at given checked
    exact ⟨index, _, given, key, checked.symm.trans invalid, same⟩
  · rintro ⟨index, address, given, key, unverified, same⟩
    exact ⟨((default, address), false), ⟨⟨index, given, key, unverified.symm⟩, rfl, rfl⟩, same⟩

theorem returned_badSig (fills : Fills K (unsigned transaction.message) transaction) :
    (returnSignersData K transaction (Platform.serializeV1 transaction.message) dump).badSig =
      [] := by
  rw [returnSignersData, sortSlots_eq]
  show List.map _ _ = []
  rw [List.map_eq_nil_iff, List.filter_eq_nil_iff]
  intro slot listed bad
  obtain ⟨index, given, key, checked⟩ := (mem_slots transactions transaction slot).mp listed
  rw [Bool.and_eq_true, Bool.not_eq_true', bne_iff_ne] at bad
  rcases fills.slots index with unchanged | ⟨own, valid, key', given', verified⟩
  · rw [given] at unchanged
    exact bad.2 (List.eq_of_mem_replicate (List.mem_of_getElem? unchanged.symm))
  · obtain rfl := Option.some.inj (key.symm.trans key')
    obtain rfl := Option.some.inj (given.symm.trans given')
    exact Bool.noConfusion (bad.1.symm.trans (checked.trans verified))

end Data

/-- A transaction whose slots were only filled by signing is sorted with nothing bad. -/
theorem returnSignersData_sorted (text : K.TextLaws) (transactions : K.TransactionLaws)
    {transaction : P.Transaction} (formed : transaction.message.WellFormed)
    (fills : Fills K (unsigned transaction.message) transaction) (dump : Bool) :
    Sorted K transaction.message
      (returnSignersData K transaction (Platform.serializeV1 transaction.message) dump) := by
  have count : transaction.signatures.length =
      transaction.message.header.numRequiredSignatures.toNat := by
    rw [fills.length]
    exact List.length_replicate
  have signer {index : Nat} {signature : P.Signature} {address : P.Address}
      (given : transaction.signatures[index]? = some signature)
      (key : transaction.message.accountKeys[index]? = some address) :
      address ∈ transaction.message.signerKeys := by
    obtain ⟨below, -⟩ := List.getElem?_eq_some_iff.mp given
    obtain ⟨inside, same⟩ := List.getElem?_eq_some_iff.mp key
    rw [← same]
    exact (formed.getElem_mem_signerKeys inside).mpr (by omega)
  have shown {address other : P.Address} (same : K.showAddress address = K.showAddress other) :
      address = other := by
    have read := congrArg K.parseAddress same
    rw [text.address, text.address] at read
    exact Except.ok.inj read
  have unique {index other : Nat} {address : P.Address}
      (one : transaction.message.accountKeys[index]? = some address)
      (two : transaction.message.accountKeys[other]? = some address) : index = other := by
    obtain ⟨inside, -⟩ := List.getElem?_eq_some_iff.mp one
    exact (List.getElem?_inj inside formed.distinct).mp (one.trans two.symm)
  refine ⟨?_, ?_, returned_badSig transactions transaction dump fills, ?_⟩
  · intro entry listed
    obtain ⟨index, signature, address, given, key, verified, same⟩ :=
      (mem_returned_signers transactions transaction dump entry).mp listed
    exact ⟨address, signer given key, signature, same.symm, verified⟩
  · intro entry listed
    obtain ⟨index, address, given, key, -, same⟩ :=
      (mem_returned_absent transactions transaction dump entry).mp listed
    exact ⟨address, signer given key, same.symm⟩
  · intro address required
    obtain ⟨index, below, same⟩ := List.mem_take_iff_getElem.mp required
    have key : transaction.message.accountKeys[index]? = some address :=
      List.getElem?_eq_some_iff.mpr ⟨by omega, same⟩
    by_cases valid : ValidSlot K transaction index
    · refine .inl ⟨?_, ?_⟩
      · obtain ⟨own, signature, key', given', verified⟩ := valid
        obtain rfl := Option.some.inj (key.symm.trans key')
        exact ⟨signature, (mem_returned_signers transactions transaction dump _).mpr
          ⟨index, signature, address, given', key, verified, rfl⟩⟩
      · intro listed
        obtain ⟨other, own, empty, key', unverified, same'⟩ :=
          (mem_returned_absent transactions transaction dump _).mp listed
        obtain rfl := shown same'
        obtain rfl := unique key key'
        obtain ⟨found, signature, key'', given', verified⟩ := valid
        obtain rfl := Option.some.inj (key.symm.trans key'')
        obtain rfl := Option.some.inj (empty.symm.trans given')
        exact Bool.noConfusion (unverified.symm.trans verified)
    · have empty : transaction.signatures[index]? = some default := by
        have unchanged := (fills.slots index).resolve_right valid
        rw [unchanged, unsigned, List.getElem?_replicate, if_pos (by omega)]
      refine .inr ⟨?_, ?_⟩
      · refine (mem_returned_absent transactions transaction dump _).mpr
          ⟨index, address, empty, key, ?_, rfl⟩
        rw [← Bool.not_eq_true]
        intro verified
        exact valid ⟨address, default, key, empty, verified⟩
      · rintro ⟨signature, listed⟩
        obtain ⟨other, signature', own, given', key', verified, same'⟩ :=
          (mem_returned_signers transactions transaction dump _).mp listed
        obtain ⟨rfl, rfl⟩ := signatureEntry_inj text same'
        obtain rfl := unique key key'
        exact valid ⟨own, signature', key, given', verified⟩

end Sorting

end V1Transaction

end ProgrammaticSigner
