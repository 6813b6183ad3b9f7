import ProgrammaticSigner.Signer.Layout

set_option autoImplicit false

/- Which authorization messages are built, and that one is built whenever it could be. -/
namespace ProgrammaticSigner

open Outcome SignerClient

variable {P : Platform}

/-- An authorization message says of every key what the executor instruction and the
authorities do. -/
structure BuiltFor (executorInstruction : P.Instruction) (authorities : List P.Address)
    (message : P.Message) : Prop where
  valid : P.validate message = .ok ()
  required : message.header.numRequiredSignatures.toNat = authorities.length
  signers : message.signerKeys = authorities.filter (writesTo executorInstruction) ++
    authorities.filter fun authority => !writesTo executorInstruction authority
  distinct : message.accountKeys.Nodup
  keys : ∀ address, address ∈ message.accountKeys ↔ address ∈ authorities ∨
    address ∈ executorInstruction.accounts.map AccountMeta.pubkey ∨
    address = executorInstruction.programId
  single : ∃ ix, message.instructions = [ix] ∧
    message.accountKeys[ix.programIdIndex.toNat]? = some executorInstruction.programId ∧
    ix.accounts.map (fun index => message.accountKeys[index.toNat]?) =
      executorInstruction.accounts.map (fun account => some account.pubkey) ∧
    ix.data = executorInstruction.data
  writable : ∀ (index : Nat) key, message.accountKeys[index]? = some key →
    key ≠ executorInstruction.programId →
    (message.isWritableIndex index = true ↔
      (∃ account ∈ executorInstruction.accounts, account.pubkey = key ∧
        account.isWritable = true) ∨ index = 0)
  program : ∀ index : Nat, message.accountKeys[index]? = some executorInstruction.programId →
    message.isWritableIndex index = false

/-- The inputs a message is built for. -/
structure Buildable (executorInstruction : P.Instruction) (authorities : List P.Address) :
    Prop where
  positive : 1 ≤ authorities.length
  few : authorities.length ≤ 12
  distinct : authorities.Nodup
  program : executorInstruction.programId ∉ authorities
  keys : (authorities ++ executorInstruction.accounts.map AccountMeta.pubkey ++
    [executorInstruction.programId]).toFinset.card ≤ 64
  accounts : executorInstruction.accounts.length ≤ 255
  data : executorInstruction.data.length ≤ 65535

theorem pushNew_nodup {keys : List P.Address} (distinct : keys.Nodup) (key : P.Address) :
    (pushNew keys key).Nodup := by
  unfold pushNew
  split
  · exact distinct
  · rename_i absent
    exact List.nodup_append.mpr ⟨distinct, List.nodup_singleton key, by grind⟩

theorem collectUnsigned_nodup (programId : P.Address) (authorities : List P.Address)
    (accounts : List P.AccountMeta) {writableUnsigned readonlyUnsigned : List P.Address}
    (writable : writableUnsigned.Nodup) (readonly : readonlyUnsigned.Nodup) :
    (collectUnsigned programId authorities accounts writableUnsigned readonlyUnsigned).1.Nodup ∧
      (collectUnsigned programId authorities accounts writableUnsigned
        readonlyUnsigned).2.Nodup := by
  induction accounts generalizing writableUnsigned readonlyUnsigned with
  | nil => exact ⟨writable, readonly⟩
  | cons account rest ih =>
      unfold collectUnsigned
      split
      · exact ih writable readonly
      · split
        · exact ih writable readonly
        · split
          · exact ih (pushNew_nodup writable _) readonly
          · exact ih writable (pushNew_nodup readonly _)

section Keys

variable (executorInstruction : P.Instruction) (authorities : List P.Address)

theorem writesTo_iff (address : P.Address) : writesTo executorInstruction address = true ↔
    ∃ account ∈ executorInstruction.accounts, account.pubkey = address ∧
      account.isWritable = true := by
  simp only [writesTo, List.any_eq_true, Bool.and_eq_true, beq_iff_eq]
  exact exists_congr fun account => and_congr_right' and_comm

/-- The keys are the authorities, the instruction's accounts and its program. -/
theorem mem_authorizationKeys (address : P.Address) :
    address ∈ authorizationKeys executorInstruction authorities ↔ address ∈ authorities ∨
      address ∈ executorInstruction.accounts.map AccountMeta.pubkey ∨
      address = executorInstruction.programId := by
  have writable := mem_writableUnsigned executorInstruction authorities address
  have readonly := mem_readonlyUnsigned executorInstruction authorities address
  have occurs : writesTo executorInstruction address = true →
      address ∈ executorInstruction.accounts.map AccountMeta.pubkey := by
    intro writes
    obtain ⟨account, listed, same, _⟩ := (writesTo_iff executorInstruction address).mp writes
    exact List.mem_map.mpr ⟨account, listed, same⟩
  unfold authorizationKeys
  rw [List.mem_append, List.mem_append, List.mem_append, mem_authorities, writable, readonly,
    List.mem_singleton]
  grind

/-- The segments overlap only where authorities repeat or include the program. -/
theorem authorizationKeys_nodup_iff :
    (authorizationKeys executorInstruction authorities).Nodup ↔
      authorities.Nodup ∧ executorInstruction.programId ∉ authorities := by
  have signers : (authorities.filter (writesTo executorInstruction) ++
      authorities.filter fun authority => !writesTo executorInstruction authority).Perm
        authorities := List.filter_append_perm _ _
  have collected := @collectUnsigned_nodup P executorInstruction.programId authorities
    executorInstruction.accounts [] [] List.nodup_nil List.nodup_nil
  have writable : (unsignedKeys executorInstruction authorities).1.Nodup := collected.1
  have readonly : (unsignedKeys executorInstruction authorities).2.Nodup :=
    List.Nodup.filter _ collected.2
  have members := mem_authorities executorInstruction authorities
  have unsigned := mem_writableUnsigned executorInstruction authorities
  have others := mem_readonlyUnsigned executorInstruction authorities
  unfold authorizationKeys
  rw [List.nodup_append, List.nodup_append, List.nodup_append, signers.nodup_iff]
  constructor
  · intro apart
    obtain ⟨⟨⟨distinct, _, _⟩, _, separate⟩, _, _⟩ := apart
    refine ⟨distinct, ?_⟩
    intro listed
    have member := List.mem_append_left (unsignedKeys executorInstruction authorities).1
      ((members _).mpr listed)
    exact separate _ member _ (List.mem_singleton_self _) rfl
  · intro apart
    obtain ⟨distinct, separate⟩ := apart
    refine ⟨⟨⟨distinct, writable, ?_⟩, List.nodup_singleton _, ?_⟩, readonly, ?_⟩
    · intro first signs second writes same
      exact ((unsigned second).mp writes).1 (same ▸ (members first).mp signs)
    · intro first listed second program same
      rw [List.mem_singleton] at program
      rcases List.mem_append.mp listed with signs | writes
      · exact separate (program ▸ same ▸ (members first).mp signs)
      · exact ((unsigned first).mp writes).2.1 (same.trans program)
    · intro first listed second reads same
      have second_ := (others second).mp reads
      rcases List.mem_append.mp listed with listed | program
      · rcases List.mem_append.mp listed with signs | writes
        · exact second_.1 (same ▸ (members first).mp signs)
        · have written := ((unsigned first).mp writes).2.2
          rw [same, second_.2.2.1] at written
          cases written
      · exact second_.2.1 (same.symm.trans (List.mem_singleton.mp program))

/-- Distinct keys are counted once each. -/
theorem authorizationKeys_card (distinct : (authorizationKeys executorInstruction
      authorities).Nodup) :
    (authorizationKeys executorInstruction authorities).length =
      (authorities ++ executorInstruction.accounts.map AccountMeta.pubkey ++
        [executorInstruction.programId]).toFinset.card := by
  rw [← List.toFinset_card_of_nodup distinct]
  apply congrArg Finset.card
  ext address
  rw [List.mem_toFinset, List.mem_toFinset, mem_authorizationKeys, List.mem_append,
    List.mem_append, List.mem_singleton, or_assoc]

end Keys

section Built

variable {executorInstruction : P.Instruction} {authorities : List P.Address}
  {message : P.Message}

theorem authorizationMessage_builtFor (messages : P.MessageLaws)
    (built : authorizationMessage executorInstruction authorities = .ok message) :
    BuiltFor executorInstruction authorities message := by
  have counted := authorizationMessage_counted built
  obtain ⟨_, _, valid, compiled, found, same⟩ := authorizationMessage_ok_iff.mp built
  have formed := messages.wellFormed message valid
  have someone := authorities_ne_nil counted formed
  have resolved := messages.compiles _ _ _ found
  obtain ⟨ix, rest, ⟨program, accounts, data⟩, none, rfl⟩ :=
    List.forall₂_cons_left_iff.mp resolved
  obtain rfl := List.forall₂_nil_left_iff.mp none
  rw [← counted.keys] at program accounts
  refine ⟨valid, counted.required, ?_, formed.distinct, ?_,
    ⟨ix, by rw [same], program, accounts, data⟩, ?_, ?_⟩
  · rw [Message.signerKeys, counted.keys, counted.required, authorizationKeys, List.append_assoc,
      List.append_assoc, List.take_left' (authorities_length executorInstruction authorities)]
  · intro address
    rw [counted.keys]
    exact mem_authorizationKeys executorInstruction authorities address
  · intro index key here other
    rw [counted.writable_iff someone formed.distinct here, writesTo_iff]
    exact and_iff_right other
  · intro index here
    rw [Bool.eq_false_iff]
    intro writable
    exact ((counted.writable_iff someone formed.distinct here).mp writable).1 rfl

/-- What was built was buildable. -/
theorem authorizationMessage_buildable (messages : P.MessageLaws) (limits : P.LimitLaws)
    (built : authorizationMessage executorInstruction authorities = .ok message) :
    Buildable executorInstruction authorities := by
  have counted := authorizationMessage_counted built
  obtain ⟨few, short, valid, _⟩ := authorizationMessage_ok_iff.mp built
  have formed := messages.wellFormed message valid
  have whole := authorizationMessage_builtFor messages built
  have distinct := formed.distinct
  rw [counted.keys] at distinct
  have apart := (authorizationKeys_nodup_iff executorInstruction authorities).mp distinct
  obtain ⟨ix, single, _, accounts, data⟩ := whole.single
  have sizes := limits.limits message valid ix (single ▸ List.mem_cons_self)
  have count := congrArg List.length accounts
  rw [List.length_map, List.length_map] at count
  refine ⟨List.length_pos_iff.mpr (authorities_ne_nil counted formed), few, apart.1, apart.2, ?_,
    count ▸ sizes.1, data ▸ sizes.2⟩
  rw [← authorizationKeys_card executorInstruction authorities distinct]
  exact short

/-- Within the limits the keys and counts meet the rules of a v1 message, with the instruction
that was compiled against them. -/
theorem Buildable.wellFormed (buildable : Buildable executorInstruction authorities)
    (counted : Counted executorInstruction authorities message) {ix : CompiledInstruction}
    (single : message.instructions = [ix])
    (program : message.accountKeys[ix.programIdIndex.toNat]? =
      some executorInstruction.programId)
    (accounts : ix.accounts.map (fun index => message.accountKeys[index.toNat]?) =
      executorInstruction.accounts.map fun account => some account.pubkey) :
    message.WellFormed := by
  have distinct := (authorizationKeys_nodup_iff executorInstruction authorities).mpr
    ⟨buildable.distinct, buildable.program⟩
  have short := buildable.keys
  rw [← authorizationKeys_card executorInstruction authorities distinct, ← counted.keys] at short
  have length := authorizationKeys_length executorInstruction authorities
  rw [← counted.keys] at length
  have positive := buildable.positive
  refine ⟨?_, ?_, short, ?_, counted.keys ▸ distinct, ?_, ?_⟩
  · rw [counted.required]
    exact buildable.few
  · rw [counted.required, counted.readonlySigned]
    omega
  · rw [counted.required, counted.readonlyUnsigned]
    omega
  · intro other listed
    rw [single, List.mem_singleton] at listed
    rw [listed]
    exact (List.getElem?_eq_some_iff.mp program).1
  · intro other listed index named
    rw [single, List.mem_singleton] at listed
    rw [listed] at named
    have present := List.mem_map_of_mem (f := fun index : UInt8 =>
      message.accountKeys[index.toNat]?) named
    rw [accounts] at present
    obtain ⟨account, _, here⟩ := List.mem_map.mp present
    exact (List.getElem?_eq_some_iff.mp here.symm).1

/-- The first key is writable, so it is not the program's. -/
theorem Counted.program_ne_zero (counted : Counted executorInstruction authorities message)
    (formed : message.WellFormed) {index : Nat}
    (program : message.accountKeys[index]? = some executorInstruction.programId) : 0 < index := by
  have signed := authorities_ne_nil counted formed
  apply Nat.pos_of_ne_zero
  intro first
  have writable := (counted.isWritableIndex_iff signed index).mpr (.inl (by omega))
  exact ((counted.writable_iff signed formed.distinct program).mp writable).1 rfl

theorem Buildable.built (messages : P.MessageLaws) (limits : P.LimitLaws)
    (buildable : Buildable executorInstruction authorities) :
    ∃ message, authorizationMessage executorInstruction authorities = .ok message := by
  have distinct := (authorizationKeys_nodup_iff executorInstruction authorities).mpr
    ⟨buildable.distinct, buildable.program⟩
  have short := buildable.keys
  rw [← authorizationKeys_card executorInstruction authorities distinct] at short
  have member := mem_authorizationKeys executorInstruction authorities
  obtain ⟨compiled, found⟩ := limits.compiles (authorizationKeys executorInstruction authorities)
    [executorInstruction] (by omega) (by
      intro instruction listed
      rw [List.mem_singleton.mp listed]
      refine ⟨(member _).mpr (.inr (.inr rfl)), ?_⟩
      intro account among
      exact (member _).mpr (.inr (.inl (List.mem_map_of_mem among))))
  obtain ⟨ix, rest, ⟨program, accounts, data⟩, none, same⟩ :=
    List.forall₂_cons_left_iff.mp (messages.compiles _ _ _ found)
  obtain rfl := List.forall₂_nil_left_iff.mp none
  rw [same] at found
  have counted := @counted_of_limits P executorInstruction authorities [ix] buildable.few short
  have formed := buildable.wellFormed counted rfl program accounts
  have count := congrArg List.length accounts
  rw [List.length_map, List.length_map] at count
  have valid := limits.accepts _ formed rfl (by decide : 1 ≤ 64) (by
    intro other listed
    rw [List.mem_singleton.mp listed]
    exact ⟨counted.program_ne_zero formed program, count.le.trans buildable.accounts,
      data ▸ buildable.data⟩)
  exact ⟨_, authorizationMessage_ok_iff.mpr ⟨buildable.few, short, valid, [ix], found, rfl⟩⟩

end Built

/-- An authorization message is built for exactly the inputs within the limits, and what is
built is the executor instruction over the authorities, with no count cut off. -/
theorem authorization_message_exact (messages : P.MessageLaws) (limits : P.LimitLaws)
    (executorInstruction : P.Instruction) (authorities : List P.Address) :
    (∀ message, authorizationMessage executorInstruction authorities = .ok message →
      BuiltFor executorInstruction authorities message) ∧
    ((∃ message, authorizationMessage executorInstruction authorities = .ok message) ↔
      Buildable executorInstruction authorities) := by
  refine ⟨fun message built => authorizationMessage_builtFor messages built, ?_⟩
  constructor
  · intro built
    obtain ⟨message, built⟩ := built
    exact authorizationMessage_buildable messages limits built
  · intro buildable
    exact buildable.built messages limits

namespace Reference

/-- The rules of a message with the limits of its instructions. -/
def validateLimits (message : Message Nat Bytes) : Except MessageError Unit :=
  if message.WellFormed ∧ ∀ ix ∈ message.instructions, 0 < ix.programIdIndex.toNat ∧
      ix.accounts.length ≤ 255 ∧ ix.data.length ≤ 65535 then .ok () else .error (.other 0)

end Reference

/-- The reference platform, with these rules. -/
abbrev Platform.limited : Platform :=
  { Platform.reference with
    validate := Reference.validateLimits
    sanitize := fun
      | .v1 message => Reference.validateLimits message
      | _ => .ok () }

namespace Reference

theorem validateLimits_ok_iff {message : Message Nat Bytes} {value : Unit} :
    validateLimits message = .ok value ↔ message.WellFormed ∧
      ∀ ix ∈ message.instructions, 0 < ix.programIdIndex.toNat ∧
        ix.accounts.length ≤ 255 ∧ ix.data.length ≤ 65535 := by
  unfold validateLimits
  split <;> simp_all

theorem limited_messageLaws : Platform.limited.MessageLaws where
  wellFormed _ valid := (validateLimits_ok_iff.mp valid).1
  sanitize_iff _ := Iff.rfl
  serializes message _ := messageWire_total (.v1 message)
  resets message lifetime valid := by
    obtain ⟨formed, sizes⟩ := validateLimits_ok_iff.mp valid
    exact validateLimits_ok_iff.mpr ⟨(formed.withLifetime lifetime).withConfig default, sizes⟩
  isSigner _ _ := rfl
  isMaybeWritable _ _ := rfl
  compiles := messageLaws.compiles

theorem compileIndex_exists {keys : List Nat} (short : keys.length ≤ 256) {key : Nat}
    (listed : key ∈ keys) : ∃ index, compileIndex keys key = .ok index := by
  have inside := List.idxOf_lt_length_iff.mpr listed
  exact ⟨_, by rw [compileIndex, if_pos inside, if_pos (by omega)]⟩

theorem limited_limitLaws : Platform.limited.LimitLaws where
  limits _ valid ix listed := ((validateLimits_ok_iff.mp valid).2 ix listed).2
  accepts message formed _ _ sizes :=
    validateLimits_ok_iff.mpr ⟨formed, sizes⟩
  compiles keys instructions short listed := by
    have each : ∀ instruction ∈ instructions, ∃ entry,
        compileInstruction keys instruction = .ok entry := by
      intro instruction among
      obtain ⟨program, accounts⟩ := listed instruction among
      obtain ⟨index, found⟩ := compileIndex_exists short program
      have indexed : ∀ account ∈ instruction.accounts, ∃ index,
          compileIndex keys account.pubkey = .ok index := fun account member =>
        compileIndex_exists short (accounts account member)
      obtain ⟨indexes, compiles, _⟩ := mapM_exists indexed
      refine ⟨⟨index, indexes, instruction.data⟩, ?_⟩
      rw [compileInstruction, bind_of_ok found, bind_of_ok compiles]
      rfl
    obtain ⟨compiled, compiles, _⟩ := mapM_exists each
    exact ⟨compiled, compiles⟩

/-- The message for the reference execution is built within the limits. -/
theorem authorization_message_exact_reference :
    ∃ message, authorizationMessage (P := .limited) execute [(30 : Nat)] = .ok message ∧
      BuiltFor (P := .limited) execute [(30 : Nat)] message := by
  have exact_ := authorization_message_exact limited_messageLaws limited_limitLaws
    execute [(30 : Nat)]
  obtain ⟨message, built⟩ := exact_.2.mpr
    ⟨by decide, by decide, by decide, by decide, by decide, by decide, by decide +kernel⟩
  exact ⟨message, built, exact_.1 message built⟩

end Reference

end ProgrammaticSigner
