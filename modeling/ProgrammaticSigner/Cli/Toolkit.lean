import ProgrammaticSigner.Library.Outcome
import ProgrammaticSigner.Signer.Submission

set_option autoImplicit false

/- What the command line takes from outside the repository besides the platform: text
forms, the message compiler, off-chain signature checks, local signers and the RPC node. -/
namespace ProgrammaticSigner

open Outcome

abbrev Text := List Char

/-- An error as it is reported, outermost context first. -/
abbrev Failure := List String

/-- Report an error under a context. -/
def context {α : Type} (text : String) (outcome : Except Failure α) : Except Failure α :=
  outcome.mapError (text :: ·)

@[simp] theorem context_ok_iff {α : Type} {text : String} {outcome : Except Failure α}
    {value : α} : context text outcome = .ok value ↔ outcome = .ok value := mapError_ok_iff

/-- `char::is_whitespace` -/
def isWhitespace (character : Char) : Bool :=
  character.toNat ∈ [9, 10, 11, 12, 13, 32, 133, 160, 5760, 8232, 8233, 8239, 8287, 12288] ||
    8192 ≤ character.toNat && character.toNat ≤ 8202

/-- `str::trim` -/
def trim (text : Text) : Text :=
  ((text.dropWhile isWhitespace).reverse.dropWhile isWhitespace).reverse

theorem trim_eq {text : Text} (plain : ∀ character ∈ text, isWhitespace character = false) :
    trim text = text := by
  have kept (items : Text) (none : ∀ character ∈ items, isWhitespace character = false) :
      items.dropWhile isWhitespace = items := by
    cases items with
    | nil => rfl
    | cons first rest =>
        exact List.dropWhile_cons_of_neg (by rw [none first List.mem_cons_self]; decide)
  have reversed : ∀ character ∈ text.reverse, isWhitespace character = false :=
    fun character member => plain character (List.mem_reverse.mp member)
  rw [trim, kept text plain, kept text.reverse reversed, List.reverse_reverse]

/-- `str::split_once` at a character. -/
def splitOnce (separator : Char) : Text → Option (Text × Text)
  | [] => none
  | first :: rest =>
      if first = separator then some ([], rest)
      else (splitOnce separator rest).map fun parts => (first :: parts.1, parts.2)

theorem splitOnce_append {separator : Char} {left : Text} (right : Text)
    (absent : separator ∉ left) :
    splitOnce separator (left ++ separator :: right) = some (left, right) := by
  induction left with
  | nil => simp [splitOnce]
  | cons first rest ih =>
      have other : first ≠ separator := fun same => absent (same ▸ List.mem_cons_self)
      have later := ih fun member => absent (List.mem_cons_of_mem _ member)
      rw [List.cons_append, splitOnce, if_neg other, later]
      rfl

/-- Among distinct keys, the first position of a key is its only one. -/
theorem idxOf?_eq_some_of_nodup {α : Type} [DecidableEq α] {keys : List α} (distinct : keys.Nodup)
    {key : α} {index : Nat} : keys.idxOf? key = some index ↔ keys[index]? = some key := by
  rw [List.idxOf?_eq_some_iff, List.getElem?_eq_some_iff]
  constructor
  · rintro ⟨inside, same, _⟩
    exact ⟨inside, same⟩
  · rintro ⟨inside, same⟩
    refine ⟨inside, same, fun other before equal => ?_⟩
    have := (distinct.getElem_inj_iff).mp (equal.trans same.symm)
    omega

/-- Where a signer comes from: an address alone, or anything that can sign. -/
inductive SignerSource (Address : Type) where
  | pubkey (address : Address)
  | other (path : Text)
  deriving DecidableEq

/-- A loaded signer, local or hardware. -/
structure LocalSigner (Address Signature : Type) where
  tryPubkey : Except Failure Address
  isInteractive : Bool
  trySignMessage : List UInt8 → Except Failure Signature

/-- A System Program nonce account. -/
structure DurableNonce (Address Hash : Type) where
  authority : Address
  blockhash : Hash

structure Toolkit (P : Platform) where
  showAddress : P.Address → Text
  parseAddress : Text → Except Failure P.Address
  showSignature : P.Signature → Text
  parseSignature : Text → Except Failure P.Signature
  showHash : P.Hash → Text
  encodeBase64 : List UInt8 → Text
  decodeBase64 : Text → Except Failure (List UInt8)
  /-- What the codec says of bytes it cannot read. -/
  malformed : Failure
  describeMessage : MessageError → String
  describeCompile : CompileError P.Address → String
  describeProgram : ProgramError → String
  /-- An error and its causes, as they are printed. -/
  describeFailure : Failure → String
  /-- `VersionedMessage::hash_raw_message` -/
  hashRawMessage : List UInt8 → P.Hash
  /-- `v1::Message::try_compile_with_config` -/
  tryCompileWithConfig : P.Address → List P.Instruction → P.Hash → TransactionConfig →
    Except (CompileError P.Address) P.Message
  /-- `wincode::serialize` of a transaction. -/
  serializeTransaction : VersionedTransaction P.Address P.Hash P.Signature →
    Except Failure (List UInt8)
  /-- `Signature::verify` -/
  verify : P.Address → P.Signature → List UInt8 → Bool
  /-- `VersionedTransaction::verify_with_results` -/
  verifyWithResults : VersionedTransaction P.Address P.Hash P.Signature → List Bool
  /-- The System Program's instruction builder. -/
  advanceNonceAccount : P.Address → P.Address → P.Instruction

/-- One machine: its key files and devices, its RPC node, and who answers its prompts. -/
structure Client (P : Platform) where
  feePayerSource : Except Failure (SignerSource P.Address)
  /-- `load_signer`. The flag lets an address source load without a key. -/
  loadSigner : SignerSource P.Address → String → Bool →
    Except Failure (LocalSigner P.Address P.Signature)
  readLine : Except Failure Text
  nonceAccount : P.Address → Except Failure P.Nonce
  durableNonceAccount : P.Address → Except Failure (DurableNonce P.Address P.Hash)
  latestBlockhash : Except Failure P.Hash
  sendAndConfirmTransaction : VersionedTransaction P.Address P.Hash P.Signature →
    Except Failure Text

section Abbreviations

variable (P : Platform)

abbrev Platform.SignerSource := ProgrammaticSigner.SignerSource P.Address
abbrev Platform.LocalSigner := ProgrammaticSigner.LocalSigner P.Address P.Signature
abbrev Platform.Transaction := VersionedTransaction P.Address P.Hash P.Signature

end Abbreviations

namespace Toolkit

variable {P : Platform} (K : Toolkit P)

/-- An address inside a message to the user. -/
def display (address : P.Address) : String := String.ofList (K.showAddress address)

def displayHash (hash : P.Hash) : String := String.ofList (K.showHash hash)

/-- Base64 and base58 text reads back, and neither uses the characters around it. -/
structure TextLaws : Prop where
  base64 : ∀ bytes, K.decodeBase64 (K.encodeBase64 bytes) = .ok bytes
  base64_plain : ∀ bytes, ∀ character ∈ K.encodeBase64 bytes, isWhitespace character = false
  address : ∀ address, K.parseAddress (K.showAddress address) = .ok address
  address_plain : ∀ address, '=' ∉ K.showAddress address
  signature : ∀ signature, K.parseSignature (K.showSignature signature) = .ok signature

/-- Documented behavior of the transaction library. -/
structure TransactionLaws : Prop where
  /-- The fee payer and every account an instruction marks sign, and no others. -/
  compiles : ∀ feePayer instructions blockhash config message,
    K.tryCompileWithConfig feePayer instructions blockhash config = .ok message →
    ∀ address, address ∈ message.signerKeys ↔ address = feePayer ∨
      ∃ instruction ∈ instructions, instruction.grantsSigner address = true
  /-- Only the nonce's authority signs for an advance. -/
  advances : ∀ nonceAccount authority address,
    (K.advanceNonceAccount nonceAccount authority).grantsSigner address = true ↔
      address = authority
  /-- Each signature is checked against the key in its place. -/
  verifies : ∀ transaction, K.verifyWithResults transaction =
    (transaction.signatures.zip transaction.message.accountKeys).map fun slot =>
      K.verify slot.2 slot.1 (Platform.serializeV1 transaction.message)

end Toolkit

end ProgrammaticSigner
