import ProgrammaticSigner.Signer.Facts

set_option autoImplicit false

/- The signer program's client builders: the authorization message over an executor
instruction, and the `Submit` instruction that carries it. -/
namespace ProgrammaticSigner

open Outcome

variable {P : Platform}

/-- Reasons `authorization_message` cannot build a message. -/
inductive AuthorizationMessageError (Address : Type) where
  | compile (reason : CompileError Address)
  | invalid (reason : MessageError)
  deriving DecidableEq

namespace SignerClient

/-- Push a key unless the list contains it. -/
def pushNew (keys : List P.Address) (key : P.Address) : List P.Address :=
  if key ∈ keys then keys else keys ++ [key]

/-- The loop over the executor's accounts: the writable and the readonly ones that need
an unsigned slot, each in order of its first occurrence. -/
def collectUnsigned (programId : P.Address) (authorities : List P.Address) :
    List P.AccountMeta → List P.Address → List P.Address → List P.Address × List P.Address
  | [], writableUnsigned, readonlyUnsigned => (writableUnsigned, readonlyUnsigned)
  | account :: rest, writableUnsigned, readonlyUnsigned =>
      if account.pubkey ∈ authorities then
        collectUnsigned programId authorities rest writableUnsigned readonlyUnsigned
      else if account.pubkey = programId then
        collectUnsigned programId authorities rest writableUnsigned readonlyUnsigned
      else if account.isWritable then
        collectUnsigned programId authorities rest (pushNew writableUnsigned account.pubkey)
          readonlyUnsigned
      else
        collectUnsigned programId authorities rest writableUnsigned
          (pushNew readonlyUnsigned account.pubkey)

/-- The executor writes to the address. -/
def writesTo (executorInstruction : P.Instruction) (address : P.Address) : Bool :=
  executorInstruction.accounts.any fun account => account.isWritable && account.pubkey == address

/-- The unsigned keys of an authorization message. A writable occurrence wins over any
readonly ones. -/
def unsignedKeys (executorInstruction : P.Instruction) (authorities : List P.Address) :
    List P.Address × List P.Address :=
  let (writableUnsigned, readonlyUnsigned) :=
    collectUnsigned executorInstruction.programId authorities executorInstruction.accounts [] []
  (writableUnsigned, readonlyUnsigned.filter fun key => key ∉ writableUnsigned)

/-- The keys in order: authorities the executor writes to, the others, then unsigned
writable keys, the executor program and unsigned readonly keys. -/
def authorizationKeys (executorInstruction : P.Instruction) (authorities : List P.Address) :
    List P.Address :=
  authorities.filter (writesTo executorInstruction) ++
    authorities.filter (fun authority => !writesTo executorInstruction authority) ++
    (unsignedKeys executorInstruction authorities).1 ++ [executorInstruction.programId] ++
    (unsignedKeys executorInstruction authorities).2

/-- Every message needs one writable signer, so the first authority is one in any case. -/
def authorizationHeader (executorInstruction : P.Instruction) (authorities : List P.Address) :
    MessageHeader :=
  let writableSignersCount := max (authorities.filter (writesTo executorInstruction)).length 1
  ⟨UInt8.ofNat authorities.length, UInt8.ofNat (authorities.length - writableSignersCount),
    UInt8.ofNat ((unsignedKeys executorInstruction authorities).2.length + 1)⟩

/-- The v1 message that the authorities sign over the executor instruction. -/
def authorizationMessage (executorInstruction : P.Instruction) (authorities : List P.Address) :
    Except (AuthorizationMessageError P.Address) P.Message := do
  ensure (¬ maxSignatures < authorities.length) (.invalid .tooManySignatures)
  let accountKeys := authorizationKeys executorInstruction authorities
  ensure (¬ maxAddresses < accountKeys.length) (.invalid .tooManyAddresses)
  let compiledInstructions ←
    (P.compileInstructions accountKeys [executorInstruction]).mapError .compile
  let message : P.Message :=
    ⟨authorizationHeader executorInstruction authorities, default, default, accountKeys,
      compiledInstructions⟩
  (P.validate message).mapError .invalid
  return message

/-- Create a `Submit` instruction from authority signatures and their authorization
message, which is a v1 message wherever one is built. No account signs yet. -/
def submit (signatures : List (Option P.Signature)) (message : P.Message) : P.Instruction where
  programId := P.signerProgram
  accounts := message.accountKeys.mapIdx fun index key =>
    ⟨key, false, P.isMaybeWritable message index⟩
  data := SignerInstruction.serialize (.submit signatures (.v1 message))

theorem mem_pushNew {keys : List P.Address} {key other : P.Address} :
    other ∈ pushNew keys key ↔ other ∈ keys ∨ other = key := by
  unfold pushNew
  split
  · rename_i present
    constructor
    · exact Or.inl
    · intro member
      rcases member with member | same
      · exact member
      · exact same ▸ present
  · simp

/-- The loop collects the keys that have no other slot, by how they occur. -/
theorem mem_collectUnsigned (programId : P.Address) (authorities : List P.Address)
    (accounts : List P.AccountMeta) (writableUnsigned readonlyUnsigned : List P.Address)
    (key : P.Address) :
    (key ∈ (collectUnsigned programId authorities accounts writableUnsigned
        readonlyUnsigned).1 ↔ key ∈ writableUnsigned ∨ key ∉ authorities ∧ key ≠ programId ∧
          ∃ account ∈ accounts, account.pubkey = key ∧ account.isWritable = true) ∧
    (key ∈ (collectUnsigned programId authorities accounts writableUnsigned
        readonlyUnsigned).2 ↔ key ∈ readonlyUnsigned ∨ key ∉ authorities ∧ key ≠ programId ∧
          ∃ account ∈ accounts, account.pubkey = key ∧ account.isWritable = false) := by
  induction accounts generalizing writableUnsigned readonlyUnsigned with
  | nil => simp [collectUnsigned]
  | cons account rest ih =>
      simp only [collectUnsigned, List.exists_mem_cons_iff]
      split
      · have := ih writableUnsigned readonlyUnsigned
        grind
      · split
        · have := ih writableUnsigned readonlyUnsigned
          grind
        · split
          · have := ih (pushNew writableUnsigned account.pubkey) readonlyUnsigned
            have := @mem_pushNew P writableUnsigned account.pubkey key
            grind
          · have := ih writableUnsigned (pushNew readonlyUnsigned account.pubkey)
            have := @mem_pushNew P readonlyUnsigned account.pubkey key
            grind

end SignerClient

end ProgrammaticSigner
