import ProgrammaticSigner.Signer.Client

set_option autoImplicit false

/- What an authorization message holds: where each key sits, and which privileges its
position gives it. -/
namespace ProgrammaticSigner

open Outcome SignerClient

variable {P : Platform}

/-- Where keys are distinct, a key of one segment has its index in that segment. -/
theorem getElem_mem_segment {α : Type} {before segment after : List α}
    (distinct : (before ++ segment ++ after).Nodup) {index : Nat} {key : α}
    (here : (before ++ segment ++ after)[index]? = some key) (member : key ∈ segment) :
    before.length ≤ index ∧ index < before.length + segment.length := by
  obtain ⟨offset, inside, same⟩ := List.getElem_of_mem member
  have short : before.length + offset < (before ++ segment ++ after).length := by
    simp only [List.length_append]
    omega
  have there : (before ++ segment ++ after)[before.length + offset]? = some key := by
    rw [List.append_assoc, List.getElem?_append_right (Nat.le_add_right _ _),
      Nat.add_sub_cancel_left, List.getElem?_append_left inside, ← same]
    exact List.getElem?_eq_getElem inside
  have equal := (List.getElem?_inj short distinct).mp (there.trans here.symm)
  omega

section Keys

variable (executorInstruction : P.Instruction) (authorities : List P.Address)

theorem authorities_length :
    (authorities.filter (writesTo executorInstruction) ++
      authorities.filter fun authority => !writesTo executorInstruction authority).length =
        authorities.length := by
  rw [List.length_append]
  exact (List.length_eq_length_filter_add _).symm

theorem mem_authorities (address : P.Address) :
    address ∈ authorities.filter (writesTo executorInstruction) ++
      authorities.filter (fun authority => !writesTo executorInstruction authority) ↔
        address ∈ authorities := by
  rw [List.mem_append, List.mem_filter, List.mem_filter]
  cases writesTo executorInstruction address <;> simp

theorem mem_writableUnsigned (address : P.Address) :
    address ∈ (unsignedKeys executorInstruction authorities).1 ↔
      address ∉ authorities ∧ address ≠ executorInstruction.programId ∧
        writesTo executorInstruction address = true := by
  have collected := (mem_collectUnsigned executorInstruction.programId authorities
    executorInstruction.accounts [] [] address).1
  have occurs : writesTo executorInstruction address = true ↔
      ∃ account ∈ executorInstruction.accounts, account.pubkey = address ∧
        account.isWritable = true := by
    simp only [writesTo, List.any_eq_true, Bool.and_eq_true, beq_iff_eq]
    exact exists_congr fun account => and_congr_right' and_comm
  simp only [List.not_mem_nil, false_or] at collected
  rw [occurs]
  exact collected

theorem mem_readonlyUnsigned (address : P.Address) :
    address ∈ (unsignedKeys executorInstruction authorities).2 ↔
      address ∉ authorities ∧ address ≠ executorInstruction.programId ∧
        writesTo executorInstruction address = false ∧
        address ∈ executorInstruction.accounts.map AccountMeta.pubkey := by
  have collected := (mem_collectUnsigned executorInstruction.programId authorities
    executorInstruction.accounts [] [] address).2
  have writable := mem_writableUnsigned executorInstruction authorities address
  have retained : address ∈ (unsignedKeys executorInstruction authorities).2 ↔
      address ∈ (collectUnsigned executorInstruction.programId authorities
        executorInstruction.accounts [] []).2 ∧
      address ∉ (unsignedKeys executorInstruction authorities).1 := by
    show address ∈ List.filter _ _ ↔ _
    rw [List.mem_filter, decide_eq_true_eq]
    rfl
  rw [retained, collected, writable, List.mem_map]
  simp only [List.not_mem_nil, false_or]
  constructor
  · intro kept
    obtain ⟨⟨signs, other, account, listed, same, _⟩, absent⟩ := kept
    refine ⟨signs, other, ?_, account, listed, same⟩
    rw [← Bool.not_eq_true]
    exact fun writes => absent ⟨signs, other, writes⟩
  · intro kept
    obtain ⟨signs, other, reads, account, listed, same⟩ := kept
    refine ⟨⟨signs, other, account, listed, same, ?_⟩, ?_⟩
    · rw [← Bool.not_eq_true]
      intro writes
      have found : writesTo executorInstruction address = true :=
        List.any_eq_true.mpr ⟨account, listed, by simp [writes, same]⟩
      rw [reads] at found
      cases found
    · intro writes
      rw [reads] at writes
      cases writes.2.2

/-- The segments of the keys, in order. -/
theorem authorizationKeys_length :
    (authorizationKeys executorInstruction authorities).length =
      authorities.length + (unsignedKeys executorInstruction authorities).1.length + 1 +
        (unsignedKeys executorInstruction authorities).2.length := by
  have signed := authorities_length executorInstruction authorities
  rw [List.length_append] at signed
  simp only [authorizationKeys, List.length_append, List.length_singleton]
  omega

end Keys

/-- A built message and everything it was checked for. -/
theorem authorizationMessage_ok_iff {executorInstruction : P.Instruction}
    {authorities : List P.Address} {message : P.Message} :
    authorizationMessage executorInstruction authorities = .ok message ↔
      authorities.length ≤ maxSignatures ∧
      (authorizationKeys executorInstruction authorities).length ≤ maxAddresses ∧
      P.validate message = .ok () ∧
      ∃ compiled, P.compileInstructions (authorizationKeys executorInstruction authorities)
          [executorInstruction] = .ok compiled ∧
        message = ⟨authorizationHeader executorInstruction authorities, default, default,
          authorizationKeys executorInstruction authorities, compiled⟩ := by
  simp only [authorizationMessage, bind_ok_iff, ensure_ok_iff, mapError_ok_iff, pure_ok_iff,
    Nat.not_lt, exists_and_left, exists_const]
  constructor
  · rintro ⟨few, short, compiled, found, checked, valid, same⟩
    subst same
    exact ⟨few, short, valid, compiled, found, rfl⟩
  · rintro ⟨few, short, valid, compiled, found, same⟩
    subst same
    exact ⟨few, short, compiled, found, (), valid, rfl⟩

/-- What the signer program reads off an authorization message. -/
structure Authorizes (executorInstruction : P.Instruction) (authorities : List P.Address)
    (message : P.Message) : Prop where
  valid : P.validate message = .ok ()
  config : message.config = default
  single : ∃ ix, message.instructions = [ix] ∧
    message.keyAt ix.programIdIndex = executorInstruction.programId ∧
    ix.accounts.map message.keyAt = executorInstruction.accounts.map AccountMeta.pubkey ∧
    ix.data = executorInstruction.data
  count : message.header.numRequiredSignatures.toNat = authorities.length
  signers : ∀ address, address ∈ message.signerKeys ↔ address ∈ authorities
  writable : ∀ index : UInt8, index.toNat < message.accountKeys.length →
    message.keyAt index ≠ executorInstruction.programId →
    writesTo executorInstruction (message.keyAt index) = true →
    P.isMaybeWritable message index.toNat = true
  program : ∀ index : UInt8, index.toNat < message.accountKeys.length →
    message.keyAt index = executorInstruction.programId →
    P.isMaybeWritable message index.toNat = false

section Built

variable {executorInstruction : P.Instruction} {authorities : List P.Address}
  {message : P.Message}

theorem toNat_ofNat_of_le {count : Nat} (small : count ≤ 64 + 1) :
    (UInt8.ofNat count).toNat = count := by
  rw [UInt8.toNat_ofNat']
  exact Nat.mod_eq_of_lt (by omega)

/-- The compiled instruction resolves back to the original one. -/
theorem compiled_single (messages : P.MessageLaws)
    {compiled : List CompiledInstruction}
    (found : P.compileInstructions (authorizationKeys executorInstruction authorities)
      [executorInstruction] = .ok compiled)
    (keys : message.accountKeys = authorizationKeys executorInstruction authorities)
    (instructions : message.instructions = compiled) :
    ∃ ix, message.instructions = [ix] ∧
      message.keyAt ix.programIdIndex = executorInstruction.programId ∧
      ix.accounts.map message.keyAt = executorInstruction.accounts.map AccountMeta.pubkey ∧
      ix.data = executorInstruction.data := by
  have resolved := messages.compiles _ _ _ found
  obtain ⟨ix, rest, ⟨program, accounts, data⟩, none, rfl⟩ := List.forall₂_cons_left_iff.mp resolved
  obtain rfl := List.forall₂_nil_left_iff.mp none
  rw [← keys] at program accounts
  refine ⟨ix, instructions, ?_, ?_, data⟩
  · rw [Message.keyAt, List.getD_eq_getElem?_getD, program]
    rfl
  · have values := congrArg (List.map fun key : Option P.Address => key.getD default) accounts
    rw [List.map_map, List.map_map] at values
    refine Eq.trans (List.map_congr_left fun index _ => ?_) values
    rw [Message.keyAt, List.getD_eq_getElem?_getD]
    rfl

/-- The keys of a built message, and its header counts as they were meant. -/
structure Counted (executorInstruction : P.Instruction) (authorities : List P.Address)
    (message : P.Message) : Prop where
  keys : message.accountKeys = authorizationKeys executorInstruction authorities
  required : message.header.numRequiredSignatures.toNat = authorities.length
  readonlySigned : message.header.numReadonlySignedAccounts.toNat =
    authorities.length - max (authorities.filter (writesTo executorInstruction)).length 1
  readonlyUnsigned : message.header.numReadonlyUnsignedAccounts.toNat =
    (unsignedKeys executorInstruction authorities).2.length + 1

/-- Within the limits no count is cut off. -/
theorem counted_of_limits {compiled : List CompiledInstruction}
    (few : authorities.length ≤ maxSignatures)
    (short : (authorizationKeys executorInstruction authorities).length ≤ maxAddresses) :
    Counted executorInstruction authorities
      ⟨authorizationHeader executorInstruction authorities, default, default,
        authorizationKeys executorInstruction authorities, compiled⟩ := by
  have length := authorizationKeys_length executorInstruction authorities
  have writers := List.length_filter_le (writesTo executorInstruction) authorities
  rw [maxSignatures] at few
  rw [maxAddresses] at short
  refine ⟨rfl, ?_, ?_, ?_⟩
  · exact toNat_ofNat_of_le (by omega)
  · exact toNat_ofNat_of_le (by omega)
  · exact toNat_ofNat_of_le (by omega)

theorem authorizationMessage_counted
    (built : authorizationMessage executorInstruction authorities = .ok message) :
    Counted executorInstruction authorities message := by
  obtain ⟨few, short, _, compiled, _, same⟩ := authorizationMessage_ok_iff.mp built
  rw [same]
  exact counted_of_limits few short

/-- The writable indexes: the first signers, and the first keys that do not sign. -/
theorem Counted.isWritableIndex_iff (counted : Counted executorInstruction authorities message)
    (signed : authorities ≠ []) (index : Nat) : message.isWritableIndex index = true ↔
      index < max (authorities.filter (writesTo executorInstruction)).length 1 ∨
      authorities.length ≤ index ∧
        index < authorities.length + (unsignedKeys executorInstruction authorities).1.length := by
  have positive := List.length_pos_iff.mpr signed
  have length := authorizationKeys_length executorInstruction authorities
  have writers := List.length_filter_le (writesTo executorInstruction) authorities
  simp only [Message.isWritableIndex, counted.required, counted.readonlySigned,
    counted.readonlyUnsigned, counted.keys, length, Bool.or_eq_true, Bool.and_eq_true,
    decide_eq_true_eq]
  omega

/-- The program comes right after the writable keys that do not sign. -/
theorem authorizationKeys_program
    (distinct : (authorizationKeys executorInstruction authorities).Nodup) {index : Nat}
    (here : (authorizationKeys executorInstruction authorities)[index]? =
      some executorInstruction.programId) :
    authorities.length + (unsignedKeys executorInstruction authorities).1.length = index := by
  have signing := authorities_length executorInstruction authorities
  rw [List.length_append] at signing
  have range := getElem_mem_segment distinct here (List.mem_singleton_self _)
  simp only [List.length_append, List.length_singleton] at range
  omega

/-- A key is writable at its index exactly when the executor writes to it or it comes first,
and the program's own key never is. -/
theorem Counted.writable_iff (counted : Counted executorInstruction authorities message)
    (signed : authorities ≠ []) (distinct : message.accountKeys.Nodup) {index : Nat}
    {key : P.Address} (here : message.accountKeys[index]? = some key) :
    message.isWritableIndex index = true ↔
      key ≠ executorInstruction.programId ∧
        (writesTo executorInstruction key = true ∨ index = 0) := by
  rw [counted.isWritableIndex_iff signed]
  rw [counted.keys] at here distinct
  have positive := List.length_pos_iff.mpr signed
  have signing := authorities_length executorInstruction authorities
  rw [List.length_append] at signing
  have program (same : key = executorInstruction.programId) :=
    authorizationKeys_program distinct (same ▸ here)
  have member := List.mem_of_getElem? here
  unfold authorizationKeys at here distinct member
  -- The five segments, from the last one back.
  rcases List.mem_append.mp member with member | readonly
  · rcases List.mem_append.mp member with member | same
    · rcases List.mem_append.mp member with member | writable
      · simp only [List.append_assoc] at here distinct
        rcases List.mem_append.mp member with writer | reader
        · have range := @getElem_mem_segment _ [] _ _ distinct _ _ here writer
          have writes := (List.mem_filter.mp writer).2
          simp only [List.length_nil] at range
          have other : key ≠ executorInstruction.programId := fun same => by
            have := program same
            omega
          simp only [writes, other, ne_eq, not_false_eq_true, true_or, and_self, iff_true]
          omega
        · have range := getElem_mem_segment (by rwa [List.append_assoc])
            (by rwa [List.append_assoc]) reader
          have reads := (List.mem_filter.mp reader).2
          rw [Bool.not_eq_true'] at reads
          have other : key ≠ executorInstruction.programId := fun same => by
            have := program same
            omega
          simp only [reads, other, ne_eq, not_false_eq_true, true_and, Bool.false_eq_true, false_or]
          omega
      · have range := getElem_mem_segment (by rwa [List.append_assoc] at distinct)
          (by rwa [List.append_assoc] at here) writable
        simp only [List.length_append] at range
        have writes := (mem_writableUnsigned executorInstruction authorities key).mp writable
        simp only [writes.2.1, writes.2.2, ne_eq, not_false_eq_true, true_or, and_self, iff_true]
        omega
    · have same := List.mem_singleton.mp same
      have at_ := program same
      simp only [same, ne_eq, not_true_eq_false, false_and, iff_false]
      omega
  · have range := @getElem_mem_segment _ _ _ [] (by rwa [List.append_nil]) _ _
      (by rwa [List.append_nil]) readonly
    simp only [List.length_append, List.length_singleton] at range
    have reads := (mem_readonlyUnsigned executorInstruction authorities key).mp readonly
    simp only [reads.2.1, reads.2.2.1, ne_eq, not_false_eq_true, true_and, Bool.false_eq_true,
      false_or]
    omega

theorem authorities_ne_nil (counted : Counted executorInstruction authorities message)
    (formed : message.WellFormed) : authorities ≠ [] := by
  intro none
  have required := counted.required
  have positive := formed.readonlySigned
  rw [none, List.length_nil] at required
  omega

theorem authorizationMessage_authorizes (messages : P.MessageLaws)
    (built : authorizationMessage executorInstruction authorities = .ok message) :
    Authorizes executorInstruction authorities message := by
  have counted := authorizationMessage_counted built
  obtain ⟨few, short, valid, compiled, found, same⟩ := authorizationMessage_ok_iff.mp built
  have formed := messages.wellFormed message valid
  have single := compiled_single messages found counted.keys (by rw [same])
  have someone := authorities_ne_nil counted formed
  have writable {index : UInt8} (inside : index.toNat < message.accountKeys.length) :=
    counted.writable_iff someone formed.distinct (Message.keyAt_eq inside)
  refine ⟨valid, by rw [same], single, counted.required, ?_, ?_, ?_⟩
  · intro address
    have signed := authorities_length executorInstruction authorities
    rw [Message.signerKeys, counted.keys, counted.required, authorizationKeys, List.append_assoc,
      List.append_assoc, List.take_left' signed]
    exact mem_authorities executorInstruction authorities address
  · intro index inside other writes
    have uncalled : message.isCalledAsProgram index.toNat = false := by
      obtain ⟨ix, only, program, _, _⟩ := single
      rw [Message.isCalledAsProgram, only, List.any_cons, List.any_nil, Bool.or_false,
        beq_eq_false_iff_ne]
      intro called
      rw [UInt8.toNat_inj.mp called] at program
      exact other program
    rw [messages.isMaybeWritable, (writable inside).mpr ⟨other, .inl writes⟩, uncalled]
    rfl
  · intro index inside program
    have readonly : message.isWritableIndex index.toNat = false := by
      rw [Bool.eq_false_iff]
      intro writes
      exact ((writable inside).mp writes).1 program
    rw [messages.isMaybeWritable, readonly]
    rfl

end Built

end ProgrammaticSigner
