import ProgrammaticSigner.Signer.Client

set_option autoImplicit false

/- The JavaScript client's account resolvers, and that they agree with the Rust clients. What
they call in kit is a parameter, with kit's documented behavior as its laws. -/
namespace ProgrammaticSigner

open Outcome

namespace Js

/-- Kit's account roles. -/
inductive AccountRole where
  | readonly
  | writable
  | readonlySigner
  | writableSigner
  deriving DecidableEq

namespace AccountRole

def isSigner : AccountRole → Bool
  | readonlySigner | writableSigner => true
  | readonly | writable => false

def isWritable : AccountRole → Bool
  | writable | writableSigner => true
  | readonly | readonlySigner => false

end AccountRole

structure AccountMeta (Address : Type) where
  address : Address
  role : AccountRole
  deriving DecidableEq

structure MessageHeader where
  numSignerAccounts : Nat
  numReadonlySignerAccounts : Nat
  numReadonlyNonSignerAccounts : Nat
  deriving DecidableEq

/-- The ranges of a header fit the accounts it is about. -/
structure MessageHeader.Bounded (header : MessageHeader) (count : Nat) : Prop where
  signers : header.numReadonlySignerAccounts ≤ header.numSignerAccounts
  others : header.numSignerAccounts + header.numReadonlyNonSignerAccounts ≤ count

structure InstructionHeader where
  programAccountIndex : Nat
  deriving DecidableEq

structure V1CompiledTransactionMessage (Address : Type) where
  header : MessageHeader
  staticAccounts : List Address
  instructionHeaders : List InstructionHeader
  deriving DecidableEq

/-- The resolvers read nothing but the version of an older message. -/
inductive CompiledTransactionMessage (Address : Type) where
  | legacy
  | v0
  | v1 (message : V1CompiledTransactionMessage Address)
  deriving DecidableEq

/-- What a resolver throws: an error of kit's own, or a message of the client. -/
inductive Thrown (SolanaError : Type) where
  | solana (reason : SolanaError)
  | error (message : String)
  deriving DecidableEq

/-- The number of accounts with each role, in the order a message lists them. -/
def headerRoles (header : MessageHeader) (count : Nat) : List AccountRole :=
  List.replicate (header.numSignerAccounts - header.numReadonlySignerAccounts) .writableSigner ++
    List.replicate header.numReadonlySignerAccounts .readonlySigner ++
    List.replicate (count - header.numSignerAccounts - header.numReadonlyNonSignerAccounts)
      .writable ++
    List.replicate header.numReadonlyNonSignerAccounts .readonly

end Js

/-- What the resolvers take from kit. -/
structure Kit (P : Platform) where
  /-- Kit's addresses are texts. -/
  Address : Type
  [addressEq : DecidableEq Address]
  SolanaError : Type
  /-- The text of an address. -/
  address : P.Address → Address
  /-- The message decoder that consumes the entire byte array. -/
  compiledMessageDecoder : List UInt8 →
    Except SolanaError (Js.CompiledTransactionMessage Address)
  getAccountMetasFromCompiledTransactionMessage :
    Js.V1CompiledTransactionMessage Address → List (Js.AccountMeta Address)
  downgradeRoleToReadonly : Js.AccountRole → Js.AccountRole
  downgradeRoleToNonSigner : Js.AccountRole → Js.AccountRole
  /-- `LOADER_V3_PROGRAM_ADDRESS` -/
  loaderV3ProgramAddress : Address

namespace Kit

attribute [instance] addressEq

variable {P : Platform} (J : Kit P)

/-- A v1 message as kit decodes it. -/
def compiled (message : P.Message) : Js.V1CompiledTransactionMessage J.Address where
  header := ⟨message.header.numRequiredSignatures.toNat,
    message.header.numReadonlySignedAccounts.toNat,
    message.header.numReadonlyUnsignedAccounts.toNat⟩
  staticAccounts := message.accountKeys.map J.address
  instructionHeaders := message.instructions.map fun ix => ⟨ix.programIdIndex.toNat⟩

/-- Documented behavior of kit. -/
structure Laws : Prop where
  address : Function.Injective J.address
  loader : J.loaderV3ProgramAddress = J.address P.upgradeableLoader
  /-- Kit reads what the message library writes. -/
  decodes : ∀ message : P.Message, P.validate message = .ok () →
    J.compiledMessageDecoder (P.serializeV1 message) = .ok (.v1 (J.compiled message))
  addresses : ∀ message : Js.V1CompiledTransactionMessage J.Address,
    message.header.Bounded message.staticAccounts.length →
    (J.getAccountMetasFromCompiledTransactionMessage message).map Js.AccountMeta.address =
      message.staticAccounts
  /-- Roles are by the ranges of the header. -/
  roles : ∀ message : Js.V1CompiledTransactionMessage J.Address,
    message.header.Bounded message.staticAccounts.length →
    (J.getAccountMetasFromCompiledTransactionMessage message).map Js.AccountMeta.role =
      Js.headerRoles message.header message.staticAccounts.length
  readonly : ∀ role, (J.downgradeRoleToReadonly role).isSigner = role.isSigner ∧
    (J.downgradeRoleToReadonly role).isWritable = false
  nonSigner : ∀ role, (J.downgradeRoleToNonSigner role).isSigner = false ∧
    (J.downgradeRoleToNonSigner role).isWritable = role.isWritable

end Kit

namespace Js

variable {P : Platform} (J : Kit P)

/-- The version as an error spells it. -/
def versionText {Address : Type} : CompiledTransactionMessage Address → String
  | .legacy => "legacy"
  | .v0 => "v0"
  | .v1 _ => "v1"

/-- Decode a message that the programs accept, which must be v1. -/
def decodeV1Message (bytes : List UInt8) (errorMessage : String) :
    Except (Thrown J.SolanaError) (V1CompiledTransactionMessage J.Address) := do
  let message ← (J.compiledMessageDecoder bytes).mapError .solana
  match message with
  | .v1 message => pure message
  | other => throw (.error (errorMessage ++ ", got a " ++ versionText other ++ " message"))

def getProgramAccountIndexes {Address : Type} (message : V1CompiledTransactionMessage Address) :
    Finset Nat :=
  (message.instructionHeaders.map InstructionHeader.programAccountIndex).toFinset

/-- Account metas out of a message's static account list. -/
def getStaticAccountMetas (message : V1CompiledTransactionMessage J.Address) :
    List (AccountMeta J.Address) :=
  let programAccountIndexes := getProgramAccountIndexes message
  -- A program stays writable where the upgradeable loader may upgrade one.
  let hasUpgradeableLoader := decide (J.loaderV3ProgramAddress ∈ message.staticAccounts)
  (J.getAccountMetasFromCompiledTransactionMessage message).mapIdx fun index account =>
    let isDemotedProgram := decide (index ∈ programAccountIndexes) && !hasUpgradeableLoader
    { account with
      role := if isDemotedProgram then J.downgradeRoleToReadonly account.role else account.role }

/-- Resolve the remaining `Execute` accounts, with the permissions of the execution message. -/
def resolveExecutionMessageAccounts (message : List UInt8) :
    Except (Thrown J.SolanaError) (List (AccountMeta J.Address)) := do
  let message ← decodeV1Message J message
    "The message executor only supports v1 execution messages"
  pure (getStaticAccountMetas J message)

/-- Resolve the remaining `Submit` accounts. Authorities sign the authorization message and
not the relay transaction, so signer privileges are removed. -/
def resolveAuthorizationMessageAccounts (message : List UInt8) :
    Except (Thrown J.SolanaError) (List (AccountMeta J.Address)) := do
  let message ← decodeV1Message J message
    "The signer program only supports v1 authorization messages"
  pure ((getStaticAccountMetas J message).map fun account =>
    { account with role := J.downgradeRoleToNonSigner account.role })

/-- What an account meta says in either language. -/
def AccountMeta.entry {Address : Type} (account : AccountMeta Address) : Address × Bool × Bool :=
  (account.address, account.role.isSigner, account.role.isWritable)

end Js

/-- The same of a Rust client's account, under kit's text for the address. -/
def Kit.entry {P : Platform} (J : Kit P) (account : P.AccountMeta) : J.Address × Bool × Bool :=
  (J.address account.pubkey, account.isSigner, account.isWritable)

namespace Js

theorem map_mapIdx {α β γ : Type} (items : List α) (step : Nat → α → β) (next : β → γ) :
    (items.mapIdx step).map next = items.mapIdx fun index item => next (step index item) := by
  apply List.ext_getElem
  · simp only [List.length_map, List.length_mapIdx]
  · intro index inside within
    simp only [List.getElem_map, List.getElem_mapIdx]

theorem headerRoles_length {header : MessageHeader} {count : Nat}
    (bounded : header.Bounded count) : (headerRoles header count).length = count := by
  have signers := bounded.signers
  have others := bounded.others
  simp only [headerRoles, List.length_append, List.length_replicate]
  omega

/-- A position's role is the one the header's ranges give it. -/
theorem headerRoles_getElem? {header : MessageHeader} {count index : Nat} {role : AccountRole}
    (bounded : header.Bounded count) (here : (headerRoles header count)[index]? = some role) :
    role.isSigner = decide (index < header.numSignerAccounts) ∧
      role.isWritable = (decide (index < header.numSignerAccounts -
          header.numReadonlySignerAccounts) ||
        decide (header.numSignerAccounts ≤ index) &&
          decide (index < count - header.numReadonlyNonSignerAccounts)) := by
  have signers := bounded.signers
  have others := bounded.others
  unfold headerRoles at here
  simp only [List.getElem?_append, List.getElem?_replicate, List.length_append,
    List.length_replicate] at here
  -- One case for each of the four ranges.
  grind [AccountRole.isSigner, AccountRole.isWritable]

variable {P : Platform} {J : Kit P}

@[simp] theorem decodeV1Message_ok_iff {bytes : List UInt8} {errorMessage : String}
    {message : V1CompiledTransactionMessage J.Address} :
    decodeV1Message J bytes errorMessage = .ok message ↔
      J.compiledMessageDecoder bytes = .ok (.v1 message) := by
  unfold decodeV1Message
  rw [bind_ok_iff]
  simp only [mapError_ok_iff]
  constructor
  · intro decoded
    obtain ⟨decoded, found, same⟩ := decoded
    cases decoded <;> simp_all
  · intro found
    exact ⟨_, found, rfl⟩

/-- Membership in the set of program indexes is the predicate of the message library. -/
theorem mem_getProgramAccountIndexes (message : P.Message) (index : Nat) :
    index ∈ getProgramAccountIndexes (J.compiled message) ↔
      message.isCalledAsProgram index = true := by
  simp [getProgramAccountIndexes, Kit.compiled, Message.isCalledAsProgram]

theorem mem_staticAccounts (kit : J.Laws) (message : P.Message) :
    J.loaderV3ProgramAddress ∈ (J.compiled message).staticAccounts ↔
      P.upgradeableLoader ∈ message.accountKeys := by
  rw [kit.loader]
  exact List.mem_map_of_injective kit.address

theorem compiled_bounded (J : Kit P) {message : P.Message} (formed : message.WellFormed) :
    (J.compiled message).header.Bounded (J.compiled message).staticAccounts.length := by
  refine ⟨formed.readonlySigned.le, ?_⟩
  simp only [Kit.compiled, List.length_map]
  exact formed.header

/-- Kit's account at a position, before any program is demoted. -/
theorem accountMetas_getElem? (kit : J.Laws) {message : P.Message} (formed : message.WellFormed)
    {index : Nat} {account : AccountMeta J.Address}
    (here : (J.getAccountMetasFromCompiledTransactionMessage (J.compiled message))[index]? =
      some account) :
    message.accountKeys[index]?.map J.address = some account.address ∧
      account.role.isSigner = decide (index < message.header.numRequiredSignatures.toNat) ∧
      account.role.isWritable = message.isWritableIndex index := by
  have bounded := compiled_bounded J formed
  have address := congrArg (fun keys => keys[index]?) (kit.addresses _ bounded)
  have role := congrArg (fun roles => roles[index]?) (kit.roles _ bounded)
  simp only [List.getElem?_map, here, Option.map_some] at address role
  have ranges := headerRoles_getElem? bounded role.symm
  refine ⟨?_, ranges.1, ?_⟩
  · rw [address, Kit.compiled, List.getElem?_map]
  · rw [ranges.2]
    simp only [Kit.compiled, List.length_map]
    rfl

theorem accountMetas_length (kit : J.Laws) {message : P.Message} (formed : message.WellFormed) :
    (J.getAccountMetasFromCompiledTransactionMessage (J.compiled message)).length =
      message.accountKeys.length := by
  have addresses := congrArg List.length (kit.addresses _ (compiled_bounded J formed))
  simpa only [Kit.compiled, List.length_map] using addresses

/-- A program is demoted at the positions where the message library demotes one. -/
theorem demoted_iff (kit : J.Laws) (message : P.Message) (index : Nat) :
    (decide (index ∈ getProgramAccountIndexes (J.compiled message)) &&
        !decide (J.loaderV3ProgramAddress ∈ (J.compiled message).staticAccounts)) =
      (message.isCalledAsProgram index && !decide (P.upgradeableLoader ∈ message.accountKeys)) := by
  simp only [mem_getProgramAccountIndexes, mem_staticAccounts kit, Bool.decide_eq_true]

/-- What a role says once a demotion is applied. -/
theorem downgraded (kit : J.Laws) (demoted : Bool) (role : AccountRole) :
    (if demoted then J.downgradeRoleToReadonly role else role).isSigner = role.isSigner ∧
      (if demoted then J.downgradeRoleToReadonly role else role).isWritable =
        (role.isWritable && !demoted) := by
  cases demoted with
  | false => simp
  | true => simp [kit.readonly role]

/-- Removing signer privileges leaves the rest of each account as it was. -/
theorem entries_downgradeRoleToNonSigner (kit : J.Laws) (accounts : List (AccountMeta J.Address)) :
    (accounts.map fun account =>
        { account with role := J.downgradeRoleToNonSigner account.role }).map AccountMeta.entry =
      (accounts.map AccountMeta.entry).map fun entry => (entry.1, false, entry.2.2) := by
  rw [List.map_map, List.map_map]
  apply List.map_congr_left
  intro account _
  simp only [Function.comp_apply, AccountMeta.entry, kit.nonSigner account.role]

/-- The index set and the downgrade decide each position as the message library does. -/
theorem getStaticAccountMetas_entries (messages : P.MessageLaws) (kit : J.Laws)
    {message : P.Message} (formed : message.WellFormed) :
    (getStaticAccountMetas J (J.compiled message)).map AccountMeta.entry =
      message.accountKeys.mapIdx fun index key =>
        (J.address key, P.isSigner message index, P.isMaybeWritable message index) := by
  apply List.ext_getElem
  · rw [List.length_map, getStaticAccountMetas, List.length_mapIdx, List.length_mapIdx]
    exact accountMetas_length kit formed
  · intro index inside within
    rw [List.length_mapIdx] at within
    have here := List.getElem?_eq_getElem ((accountMetas_length kit formed).symm ▸ within)
    obtain ⟨address, signs, writes⟩ := accountMetas_getElem? kit formed here
    rw [List.getElem?_eq_getElem within, Option.map_some] at address
    simp only [getStaticAccountMetas, List.getElem_map, List.getElem_mapIdx, AccountMeta.entry,
      demoted_iff kit, downgraded kit, signs, writes, messages.isSigner, messages.isMaybeWritable,
      Option.some.inj address]

end Js

open Js

variable {P : Platform} {J : Kit P}

/-- On the encoding of a valid message, the JavaScript client's resolvers list the accounts the
Rust clients append. -/
theorem clients_build_same_accounts (messages : P.MessageLaws) (kit : J.Laws)
    (message : P.Message) (valid : P.sanitize (.v1 message) = .ok ())
    (nonceAccount nonceAuthority : P.Address) (signatures : List (Option P.Signature)) :
    (∃ accounts, resolveExecutionMessageAccounts J (P.serializeV1 message) = .ok accounts ∧
      accounts.map AccountMeta.entry =
        ((ExecutorClient.execute nonceAccount nonceAuthority message).accounts.drop 3).map
          J.entry) ∧
    (∃ accounts, resolveAuthorizationMessageAccounts J (P.serializeV1 message) = .ok accounts ∧
      accounts.map AccountMeta.entry =
        (SignerClient.submit signatures message).accounts.map J.entry) := by
  have validated := (messages.sanitize_iff message).mp valid
  have formed := messages.wellFormed message validated
  have decoded := kit.decodes message validated
  have entries := getStaticAccountMetas_entries messages kit formed
  constructor
  · refine ⟨getStaticAccountMetas J (J.compiled message), ?_, ?_⟩
    · rw [resolveExecutionMessageAccounts, bind_of_ok (decodeV1Message_ok_iff.mpr decoded)]
      rfl
    · rw [entries, ExecutorClient.execute]
      simp only [List.drop_succ_cons, List.drop_zero, map_mapIdx, Kit.entry]
  · refine ⟨(getStaticAccountMetas J (J.compiled message)).map fun account =>
      { account with role := J.downgradeRoleToNonSigner account.role }, ?_, ?_⟩
    · rw [resolveAuthorizationMessageAccounts, bind_of_ok (decodeV1Message_ok_iff.mpr decoded)]
      rfl
    · rw [entries_downgradeRoleToNonSigner kit, entries, SignerClient.submit, map_mapIdx,
        map_mapIdx]
      simp only [Kit.entry]

namespace Reference

/-- Read a message of the reference platform, whose addresses are their own texts. -/
def compiledMessageDecoder (bytes : Bytes) : Except Unit (CompiledTransactionMessage Nat) :=
  match messageWire.deserializeExact bytes with
  | some (.v1 message) => .ok (.v1 {
      header := ⟨message.header.numRequiredSignatures.toNat,
        message.header.numReadonlySignedAccounts.toNat,
        message.header.numReadonlyUnsignedAccounts.toNat⟩
      staticAccounts := message.accountKeys
      instructionHeaders := message.instructions.map fun ix => ⟨ix.programIdIndex.toNat⟩ })
  | some (.v0 _) => .ok .v0
  | some (.legacy _) => .ok .legacy
  | none => .error ()

end Reference

abbrev Kit.reference : Kit Platform.reference where
  Address := Nat
  SolanaError := Unit
  address := id
  compiledMessageDecoder := Reference.compiledMessageDecoder
  getAccountMetasFromCompiledTransactionMessage message :=
    (message.staticAccounts.zip (headerRoles message.header message.staticAccounts.length)).map
      fun entry => ⟨entry.1, entry.2⟩
  downgradeRoleToReadonly
    | .writableSigner => .readonlySigner
    | .writable => .readonly
    | role => role
  downgradeRoleToNonSigner
    | .writableSigner => .writable
    | .readonlySigner => .readonly
    | role => role
  loaderV3ProgramAddress := 10

namespace Reference

theorem kit_laws : Kit.reference.Laws where
  address := Function.injective_id
  loader := rfl
  decodes message valid := by
    have read := Wire.deserializeExact_encode messageWire (messageWire_total (.v1 message))
    show compiledMessageDecoder (messageWire.encode (.v1 message)) = _
    simp [compiledMessageDecoder, read, Kit.compiled]
  addresses message bounded := by
    rw [List.map_map]
    exact List.map_fst_zip (headerRoles_length bounded).ge
  roles message bounded := by
    rw [List.map_map]
    exact List.map_snd_zip (headerRoles_length bounded).le
  readonly role := by cases role <;> decide
  nonSigner role := by cases role <;> decide

/-- Two calls of the writable program 40, with the loader as the last key where it is included. -/
def upgrade (includeLoader : Bool) : Platform.reference.Message where
  header := ⟨2, 0, 1⟩
  config := default
  lifetimeSpecifier := state.nonce
  accountKeys := [nonceAuthority, 30, 40, if includeLoader then 10 else 50]
  instructions := [⟨2, [0], [7]⟩, ⟨1, [3], []⟩]

/-- The clients agree where signing and writable programs are demoted, and where they are not. -/
theorem clients_build_same_accounts_reference :
    (∃ accounts, resolveExecutionMessageAccounts .reference
        (Platform.reference.serializeV1 (upgrade false)) = .ok accounts ∧
      accounts.map AccountMeta.entry =
        [(nonceAuthority, true, true), (30, true, false), (40, false, false),
          (50, false, false)]) ∧
    ∃ accounts, resolveAuthorizationMessageAccounts .reference
        (Platform.reference.serializeV1 (upgrade true)) = .ok accounts ∧
      accounts.map AccountMeta.entry =
        [(nonceAuthority, false, true), (30, false, true), (40, false, true),
          (10, false, false)] := by
  have demoted := (clients_build_same_accounts messageLaws kit_laws (upgrade false)
    (by decide +kernel) nonceAccount nonceAuthority []).1
  have kept := (clients_build_same_accounts messageLaws kit_laws (upgrade true)
    (by decide +kernel) nonceAccount nonceAuthority []).2
  exact ⟨demoted, kept⟩

end Reference

end ProgrammaticSigner
