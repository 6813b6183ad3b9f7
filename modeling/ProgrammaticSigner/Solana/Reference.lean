import ProgrammaticSigner.Library.Outcome
import ProgrammaticSigner.Solana.Platform

set_option autoImplicit false

/- A platform that computes and has every law. Addresses are numbers, the odd ones off
the curve; a digest is its own input; a signature names its signer and its message. -/
namespace ProgrammaticSigner

namespace Reference

abbrev Bytes := List UInt8

def bytesWire : Wire Bytes := Wire.list Wire.tally Wire.byte

theorem bytesWire_total : bytesWire.Total := Wire.list_total Wire.tally_total Wire.byte_total

def headerWire : Wire MessageHeader :=
  (Wire.byte.pair (Wire.byte.pair Wire.byte)).iso
    (fun read => ⟨read.1, read.2.1, read.2.2⟩)
    (fun header => (header.numRequiredSignatures, header.numReadonlySignedAccounts,
      header.numReadonlyUnsignedAccounts))
    (fun _ => rfl) (fun _ _ => rfl)

def configWire : Wire TransactionConfig :=
  (Wire.uint64.option.pair (Wire.uint32.option.pair
    (Wire.uint32.option.pair Wire.uint32.option))).iso
    (fun read => ⟨read.1, read.2.1, read.2.2.1, read.2.2.2⟩)
    (fun config => (config.priorityFee, config.computeUnitLimit,
      config.loadedAccountsDataSizeLimit, config.heapSize))
    (fun _ => rfl) (fun _ _ => rfl)

def compiledWire : Wire CompiledInstruction :=
  (Wire.byte.pair (bytesWire.pair bytesWire)).iso
    (fun read => ⟨read.1, read.2.1, read.2.2⟩)
    (fun entry => (entry.programIdIndex, entry.accounts, entry.data))
    (fun _ => rfl) (fun _ _ => rfl)

def messageV1Wire : Wire (Message Nat Bytes) :=
  (headerWire.pair (configWire.pair (bytesWire.pair
    ((Wire.list Wire.tally Wire.tally).pair (Wire.list Wire.tally compiledWire))))).iso
    (fun read => ⟨read.1, read.2.1, read.2.2.1, read.2.2.2.1, read.2.2.2.2⟩)
    (fun message => (message.header, message.config, message.lifetimeSpecifier,
      message.accountKeys, message.instructions))
    (fun _ => rfl) (fun _ _ => rfl)

/-- The version is a tag before the body. -/
def messageWire : Wire (VersionedMessage Nat Bytes) :=
  (messageV1Wire.sum (bytesWire.sum bytesWire)).iso
    (fun | .inl message => .v1 message | .inr (.inl bytes) => .v0 bytes
         | .inr (.inr bytes) => .legacy bytes)
    (fun | .v1 message => .inl message | .v0 bytes => .inr (.inl bytes)
         | .legacy bytes => .inr (.inr bytes))
    (by rintro (bytes | bytes | message) <;> rfl)
    (by rintro (message | bytes | bytes) - <;> rfl)

theorem messageWire_total : messageWire.Total := by
  have compiled : compiledWire.Total := Wire.iso_total
    (Wire.pair_total Wire.byte_total (Wire.pair_total bytesWire_total bytesWire_total))
  have config : configWire.Total := Wire.iso_total
    (Wire.pair_total (Wire.option_total Wire.uint64_total)
      (Wire.pair_total (Wire.option_total Wire.uint32_total)
        (Wire.pair_total (Wire.option_total Wire.uint32_total)
          (Wire.option_total Wire.uint32_total))))
  have header : headerWire.Total := Wire.iso_total
    (Wire.pair_total Wire.byte_total (Wire.pair_total Wire.byte_total Wire.byte_total))
  have keys := Wire.list_total Wire.tally_total Wire.tally_total
  have instructions := Wire.list_total Wire.tally_total compiled
  exact Wire.iso_total (Wire.sum_total
    (Wire.iso_total (Wire.pair_total header (Wire.pair_total config
      (Wire.pair_total bytesWire_total (Wire.pair_total keys instructions)))))
    (Wire.sum_total bytesWire_total bytesWire_total))

instance (message : Message Nat Bytes) : Decidable message.WellFormed :=
  decidable_of_iff
    (message.header.numRequiredSignatures.toNat ≤ maxSignatures ∧
      message.header.numReadonlySignedAccounts.toNat <
        message.header.numRequiredSignatures.toNat ∧
      message.accountKeys.length ≤ maxAddresses ∧
      message.header.numRequiredSignatures.toNat +
        message.header.numReadonlyUnsignedAccounts.toNat ≤ message.accountKeys.length ∧
      message.accountKeys.Nodup ∧
      (∀ instruction ∈ message.instructions,
        instruction.programIdIndex.toNat < message.accountKeys.length) ∧
      ∀ instruction ∈ message.instructions, ∀ index ∈ instruction.accounts,
        index.toNat < message.accountKeys.length)
    ⟨fun ⟨signatures, readonlySigned, addresses, header, distinct, programs, indexes⟩ =>
        ⟨signatures, readonlySigned, addresses, header, distinct, programs, indexes⟩,
      fun ⟨signatures, readonlySigned, addresses, header, distinct, programs, indexes⟩ =>
        ⟨signatures, readonlySigned, addresses, header, distinct, programs, indexes⟩⟩

def validate (message : Message Nat Bytes) : Except MessageError Unit :=
  if message.WellFormed then .ok () else .error (.other 0)

def compileIndex (keys : List Nat) (key : Nat) : Except (CompileError Nat) UInt8 :=
  if keys.idxOf key < keys.length then
    if keys.idxOf key < 256 then .ok (UInt8.ofNat (keys.idxOf key))
    else .error .accountIndexOverflow
  else .error (.unknownInstructionKey key)

def compileInstruction (keys : List Nat) (instruction : Instruction Nat) :
    Except (CompileError Nat) CompiledInstruction := do
  let programIdIndex ← compileIndex keys instruction.programId
  let accounts ← instruction.accounts.mapM fun account => compileIndex keys account.pubkey
  return ⟨programIdIndex, accounts, instruction.data⟩

/-- The key that the one seed past the prefix spells, doubled to leave the curve. -/
def derived (seeds : List Bytes) : Nat :=
  match seeds with
  | _ :: key :: _ => 2 * ((Wire.tally.decode key).elim 0 Prod.fst) + 1
  | _ => 1

end Reference

abbrev Platform.reference : Platform where
  Address := Nat
  Hash := Reference.Bytes
  Signature := Option (Nat × Reference.Bytes)
  addressWire := Wire.tally
  hashWire := Reference.bytesWire
  signatureWire := (Wire.tally.pair Reference.bytesWire).option
  messageWire := Reference.messageWire
  nonceProgram := 2
  executorProgram := 4
  signerProgram := 6
  slotHashes := 8
  upgradeableLoader := 10
  validate := Reference.validate
  sanitize
    | .v1 message => Reference.validate message
    | _ => .ok ()
  isSigner message index := index < message.header.numRequiredSignatures.toNat
  isMaybeWritable message index := message.isWritableIndex index &&
    !(message.isCalledAsProgram index && !decide (10 ∈ message.accountKeys))
  compileInstructions keys instructions := instructions.mapM (Reference.compileInstruction keys)
  sha256 bytes := bytes
  deriveProgramAddress seeds _ := (Reference.derived seeds, 255)
  createProgramAddress seeds _ := some (Reference.derived seeds)
  verifyStrict address signature message := signature == some (address, message)
  minimumBalance size := .ok (UInt64.ofNat size)

namespace Reference

theorem keyLaws : Platform.reference.KeyLaws := ⟨Wire.tally_total, bytesWire_total⟩

theorem signature_total : Platform.reference.signatureWire.Total :=
  Wire.option_total (Wire.pair_total Wire.tally_total bytesWire_total)

theorem programLaws : Platform.reference.ProgramLaws :=
  ⟨by decide, by decide, by decide, by decide, by decide, by decide⟩

theorem bytesWire_longer (bytes : Bytes) : bytes.length < (bytesWire.encode bytes).length := by
  have each (items : Bytes) : (items.flatMap Wire.byte.encode).length = items.length := by
    induction items with
    | nil => rfl
    | cons first others ih =>
        rw [List.flatMap_cons, List.length_append, ih, List.length_cons]
        exact Nat.add_comm _ _
  have tallied : (Wire.tally.encode bytes.length).length = bytes.length + 1 := by
    simp [Wire.tally]
  have whole : (bytesWire.encode bytes).length = bytes.length + 1 + bytes.length := by
    rw [← tallied]
    exact (List.length_append).trans (congrArg _ (each bytes))
  omega

/-- A digest is longer than any digest inside it. -/
theorem hashLaws : Platform.reference.HashLaws := by
  refine ⟨fun _ _ same => same, fun hash cycle => ?_⟩
  have longer {inner outer : Bytes} (chain : Relation.TransGen (fun inner outer : Bytes =>
      ∃ before after, outer = before ++ bytesWire.encode inner ++ after) inner outer) :
      inner.length < outer.length := by
    induction chain with
    | single link =>
        obtain ⟨before, after, rfl⟩ := link
        have := bytesWire_longer inner
        simp only [List.length_append]
        omega
    | @tail middle outer _ link ih =>
        obtain ⟨before, after, rfl⟩ := link
        have := bytesWire_longer middle
        simp only [List.length_append]
        omega
  exact absurd (longer cycle) (Nat.lt_irrefl _)

theorem validate_ok_iff {message : Message Nat Bytes} {value : Unit} :
    validate message = .ok value ↔ message.WellFormed := by
  unfold validate
  split <;> simp_all

theorem validate_ok {message : Platform.reference.Message} (formed : message.WellFormed) :
    Platform.reference.validate message = .ok () :=
  validate_ok_iff.mpr formed

theorem compileIndex_ok {keys : List Nat} {key : Nat} {index : UInt8}
    (found : compileIndex keys key = .ok index) : keys[index.toNat]? = some key := by
  unfold compileIndex at found
  split at found
  · rename_i inside
    split at found
    · rename_i small
      obtain rfl := Except.ok.inj found
      rw [UInt8.toNat_ofNat', Nat.mod_eq_of_lt small, List.getElem?_eq_getElem inside,
        List.getElem_idxOf]
    · cases found
  · cases found

theorem compileIndexes_ok {keys : List Nat} {accounts : List (AccountMeta Nat)}
    {indexes : List UInt8}
    (found : List.Forall₂ (fun account index => compileIndex keys account.pubkey = .ok index)
      accounts indexes) :
    indexes.map (fun index => keys[index.toNat]?) =
      accounts.map fun account => some account.pubkey := by
  induction found with
  | nil => rfl
  | cons here _ ih => rw [List.map_cons, List.map_cons, compileIndex_ok here, ih]

theorem messageLaws : Platform.reference.MessageLaws where
  wellFormed _ valid := validate_ok_iff.mp valid
  sanitize_iff _ := Iff.rfl
  serializes message _ := messageWire_total (.v1 message)
  resets message lifetime valid :=
    validate_ok_iff.mpr (((validate_ok_iff.mp valid).withLifetime lifetime).withConfig default)
  isSigner _ _ := rfl
  isMaybeWritable _ _ := rfl
  compiles keys instructions compiled found := by
    refine (Outcome.mapM_ok_iff.mp found).imp fun instruction entry one => ?_
    simp only [compileInstruction, Outcome.bind_ok_iff, Outcome.mapM_ok_iff,
      Outcome.pure_ok_iff] at one
    obtain ⟨program, found, indexes, each, rfl⟩ := one
    exact ⟨compileIndex_ok found, compileIndexes_ok each, rfl⟩

end Reference

end ProgrammaticSigner
