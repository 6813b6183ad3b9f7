import ProgrammaticSigner.Library.Outcome
import ProgrammaticSigner.Solana.Platform

set_option autoImplicit false

namespace ProgrammaticSigner

/-- On-chain data of a nonce account. -/
structure Nonce (Address Hash : Type) where
  nonce : Hash
  authority : Address
  initializeSlot : UInt64
  deriving DecidableEq

/-- `Nonce::LEN`: a hash, an address and a slot. -/
def Nonce.len : Nat := 32 + 32 + 8

instance {Address Hash : Type} [Inhabited Address] [Inhabited Hash] :
    Inhabited (Nonce Address Hash) := ⟨⟨default, default, 0⟩⟩

/-- Account data. The nonce state is a zero-copy view for which every bit pattern
is valid, so the buffers of `Nonce::LEN` bytes are exactly the states; a buffer of
any other length stays a byte string. -/
inductive AccountData (Address Hash : Type) where
  | sized (state : Nonce Address Hash)
  | unsized (bytes : List UInt8) (length_ne : bytes.length ≠ Nonce.len)
  deriving DecidableEq

namespace AccountData

variable {Address Hash : Type}

def len : AccountData Address Hash → Nat
  | sized _ => Nonce.len
  | unsized bytes _ => bytes.length

/-- A closed account holds no data. -/
def empty : AccountData Address Hash := unsized [] (by decide)

/-- Every byte is zero, as in a newly allocated account. -/
def Zeroed [Inhabited Address] [Inhabited Hash] : AccountData Address Hash → Prop
  | sized state => state = default
  | unsized bytes _ => ∀ value ∈ bytes, value = 0

@[simp] theorem len_sized (state : Nonce Address Hash) : (sized state).len = Nonce.len := rfl

@[simp] theorem len_empty : (empty : AccountData Address Hash).len = 0 := rfl

end AccountData

inductive DecodeError where
  | uninitialized
  | invalidData
  deriving DecidableEq

abbrev Platform.Nonce (P : Platform) := ProgrammaticSigner.Nonce P.Address P.Hash
abbrev Platform.AccountData (P : Platform) := ProgrammaticSigner.AccountData P.Address P.Hash

/-- The bytes of a byte-string literal. -/
def asciiBytes (text : String) : List UInt8 :=
  text.toList.map fun character => UInt8.ofNat character.toNat

def nonceInitTag : List UInt8 := asciiBytes "spl-nonce::init::v1"
def nonceStepTag : List UInt8 := asciiBytes "spl-nonce::step::v1"

namespace Nonce

variable {P : Platform}

/-- The value of a newly initialized nonce account. -/
def deriveInitialNonce (programId nonceAccount : P.Address) (recentSlotHash : P.Hash) : P.Hash :=
  P.hashv [nonceInitTag, P.addressWire.encode programId, P.addressWire.encode nonceAccount,
    P.hashWire.encode recentSlotHash]

/-- The value that follows this nonce. -/
def deriveNextNonce (state : P.Nonce) (programId nonceAccount : P.Address)
    (transitionCommitment : P.Hash) : P.Hash :=
  P.hashv [nonceStepTag, P.addressWire.encode programId, P.addressWire.encode nonceAccount,
    P.hashWire.encode state.nonce, P.hashWire.encode transitionCommitment]

/-- Any field is nonzero. -/
def isInitialized (state : P.Nonce) : Bool := state ≠ default

def viewMaybeUninitialized : P.AccountData → Except DecodeError P.Nonce
  | .sized state => .ok state
  | .unsized _ _ => .error .invalidData

def view (data : P.AccountData) : Except DecodeError P.Nonce := do
  let state ← viewMaybeUninitialized data
  Outcome.ensure state.isInitialized .uninitialized
  return state

/-- The mutable views make the same checks; their callers write the state back. -/
def viewMaybeUninitializedMut : P.AccountData → Except DecodeError P.Nonce :=
  viewMaybeUninitialized

def viewMut : P.AccountData → Except DecodeError P.Nonce := view

theorem viewMaybeUninitialized_ok_iff {data : P.AccountData} {state : P.Nonce} :
    viewMaybeUninitialized data = .ok state ↔ data = .sized state := by
  cases data <;> simp [viewMaybeUninitialized]

/-- The checked view accepts exactly the initialized states. -/
theorem view_ok_iff {data : P.AccountData} {state : P.Nonce} :
    view data = .ok state ↔ data = .sized state ∧ state ≠ default := by
  simp only [view, Outcome.bind_ok_iff, Outcome.ensure_ok_iff, Outcome.pure_ok_iff,
    viewMaybeUninitialized_ok_iff, isInitialized, decide_eq_true_eq]
  constructor
  · rintro ⟨found, stored, -, initialized, rfl⟩
    exact ⟨stored, initialized⟩
  · rintro ⟨stored, initialized⟩
    exact ⟨state, stored, (), initialized, rfl⟩

theorem nonceTags_differ (left right : List UInt8) :
    nonceInitTag ++ left ≠ nonceStepTag ++ right := by
  intro same
  have tags : nonceInitTag = nonceStepTag := (List.append_inj same (by decide)).1
  exact absurd tags (by decide)

section Hashing

variable (keys : P.KeyLaws) (hashes : P.HashLaws)
include keys hashes

omit hashes in
/-- The two addresses that every derived value starts with can be read back. -/
theorem addresses_append_inj {program program' account account' : P.Address}
    {rest rest' : List UInt8}
    (same : P.addressWire.encode program ++ (P.addressWire.encode account ++ rest) =
      P.addressWire.encode program' ++ (P.addressWire.encode account' ++ rest')) :
    program = program' ∧ account = account' ∧ rest = rest' := by
  have fits := keys.address
  obtain ⟨sameProgram, tail⟩ := P.addressWire.encode_append_inj (fits _) (fits _) same
  obtain ⟨sameAccount, tail⟩ := P.addressWire.encode_append_inj (fits _) (fits _) tail
  exact ⟨sameProgram, sameAccount, tail⟩

/-- The initial value determines the program, the account and the slot hash. -/
theorem deriveInitialNonce_inj {program program' account account' : P.Address}
    {slotHash slotHash' : P.Hash}
    (same : deriveInitialNonce program account slotHash =
      deriveInitialNonce program' account' slotHash') :
    program = program' ∧ account = account' ∧ slotHash = slotHash' := by
  have bytes := hashes.collision_free same
  simp only [List.flatten_cons, List.flatten_nil, List.append_nil] at bytes
  obtain ⟨sameProgram, sameAccount, tail⟩ :=
    addresses_append_inj keys (List.append_inj bytes rfl).2
  exact ⟨sameProgram, sameAccount, P.hashWire.encode_inj (keys.hash _) (keys.hash _) tail⟩

/-- A successor determines the program, the account, its predecessor and the
commitment it was derived with. -/
theorem deriveNextNonce_inj {state state' : P.Nonce} {program program' account account' : P.Address}
    {commitment commitment' : P.Hash}
    (same : state.deriveNextNonce program account commitment =
      state'.deriveNextNonce program' account' commitment') :
    program = program' ∧ account = account' ∧ state.nonce = state'.nonce ∧
      commitment = commitment' := by
  have bytes := hashes.collision_free same
  simp only [List.flatten_cons, List.flatten_nil, List.append_nil] at bytes
  obtain ⟨sameProgram, sameAccount, tail⟩ :=
    addresses_append_inj keys (List.append_inj bytes rfl).2
  obtain ⟨sameNonce, tail⟩ := P.hashWire.encode_append_inj (keys.hash _) (keys.hash _) tail
  exact ⟨sameProgram, sameAccount, sameNonce,
    P.hashWire.encode_inj (keys.hash _) (keys.hash _) tail⟩

omit keys in
/-- Initialization and advancement are domain separated. -/
theorem deriveInitialNonce_ne_deriveNextNonce {state : P.Nonce}
    {program program' account account' : P.Address} {slotHash commitment : P.Hash} :
    deriveInitialNonce program account slotHash ≠
      state.deriveNextNonce program' account' commitment := by
  intro same
  have bytes := hashes.collision_free same
  simp only [List.flatten_cons] at bytes
  exact nonceTags_differ _ _ bytes

end Hashing

/-- Only the stored value of the state goes into its successor. -/
theorem deriveNextNonce_congr {state state' : P.Nonce} (same : state.nonce = state'.nonce)
    (program account : P.Address) (commitment : P.Hash) :
    state.deriveNextNonce program account commitment =
      state'.deriveNextNonce program account commitment := by
  simp only [deriveNextNonce, same]

end Nonce

end ProgrammaticSigner
