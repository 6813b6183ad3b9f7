import ProgrammaticSigner.Migrate.Transfers
import ProgrammaticSigner.Signer.Submission

set_option autoImplicit false

/- What a token migration was checked against when it outputs a message, and the operations
that its instructions stand for, in order. -/
namespace ProgrammaticSigner

open Outcome

variable {P : Platform}

/-- The client reads a token account under a token program. -/
def ReadsToken (K : MigrateToolkit P) (client : ChainClient P) (address tokenProgram : P.Address)
    (account : P.TokenAccount) : Prop :=
  ∃ raw, client.optionalAccount address = .ok (some raw) ∧ raw.owner = tokenProgram ∧
    K.unpackTokenAccount raw.data = .ok account

/-- Everything that holds of a plan, on the accounts that were read. -/
structure TokenPlan.Checked (K : MigrateToolkit P) (client : ChainClient P)
    (command : TokenCommand P) (plan : TokenPlan P) : Prop where
  mint : ∃ raw, client.optionalAccount command.mint = .ok (some raw) ∧
    raw.owner = plan.token.tokenProgram ∧ K.unpackMint raw.data = .ok plan.token.mint
  tokenProgram : plan.token.tokenProgram = K.tokenProgram ∨
    plan.token.tokenProgram = K.token2022Program
  readMint : MigrateToken.readMint K client command = .ok plan.token
  sourceAddress : ∃ owner kind, MigrateToken.sourceAddress K client command plan.token =
    .ok (plan.source.address, owner, kind)
  source : ReadsToken K client plan.source.address plan.token.tokenProgram plan.source.account
  sourceMint : plan.source.account.mint = command.mint
  sourceOwner : plan.source.account.owner = plan.source.owner
  unguarded : plan.source.account.cpiGuard ≠ some true
  newOwner : Migrate.newOwnerProgrammaticSigner K plan.source.newAuthoritySigningPubkey =
    .ok plan.source.newOwner
  differs : plan.source.owner ≠ plan.source.newOwner
  amount : plan.amount ≤ plan.source.account.amount
  close : plan.close = true ↔ plan.amount = plan.source.account.amount ∧ command.noClose = false
  /-- A message transfers something or closes the source. -/
  moves : 0 < plan.amount ∨ plan.close = true
  rentRecipient : plan.rentRecipient =
    command.rentRecipient.getD plan.source.newAuthoritySigningPubkey
  different : plan.source.address ≠ plan.destination
  destination : ∀ account ∈ plan.destinationAccount,
    ReadsToken K client plan.destination plan.token.tokenProgram account ∧
    account.mint = command.mint ∧ account.owner = plan.source.newOwner ∧
    (plan.amount = 0 ∨ account.isFrozen = false)
  /-- Without one, the destination is the new owner's associated token account. -/
  associated : plan.destinationAccount = none →
    plan.destination = K.getAssociatedTokenAddress plan.source.newOwner command.mint
      plan.token.tokenProgram ∧
    (0 < plan.amount → ∃ found, client.optionalAccount plan.destination = .ok found ∧
      ∀ raw ∈ found, raw.owner ≠ plan.token.tokenProgram)

namespace MigrateToken

variable {K : MigrateToolkit P} {client : ChainClient P} {command : TokenCommand P}
  {token : TokenMint P}

theorem tokenProgramAccount_ok {address : P.Address} {kind : String} {raw : P.RawAccount}
    (read : client.tokenProgramAccount K address kind = .ok raw) :
    client.optionalAccount address = .ok (some raw) ∧
      (raw.owner = K.tokenProgram ∨ raw.owner = K.token2022Program) := by
  simp only [ChainClient.tokenProgramAccount, ChainClient.account, bind_ok_iff, okOr_ok_iff,
    ensure_ok_iff, pure_ok_iff] at read
  obtain ⟨found, ⟨_, fetched, rfl⟩, _, owned, rfl⟩ := read
  exact ⟨fetched, owned⟩

theorem readMint_ok (read : readMint K client command = .ok token) :
    (∃ raw, client.optionalAccount command.mint = .ok (some raw) ∧
      raw.owner = token.tokenProgram ∧ K.unpackMint raw.data = .ok token.mint) ∧
    (token.tokenProgram = K.tokenProgram ∨ token.tokenProgram = K.token2022Program) := by
  simp only [readMint, bind_ok_iff, context_ok_iff, pure_ok_iff] at read
  obtain ⟨raw, fetched, mint, unpacked, rfl⟩ := read
  obtain ⟨found, owned⟩ := tokenProgramAccount_ok fetched
  exact ⟨⟨raw, found, rfl, unpacked⟩, owned⟩

theorem readTokenAccount_ok_iff {address : P.Address} {raw : P.RawAccount}
    {account : P.TokenAccount} :
    readTokenAccount K command address raw = .ok account ↔
      K.unpackTokenAccount raw.data = .ok account ∧ account.mint = command.mint := by
  simp only [readTokenAccount, bind_ok_iff, context_ok_iff, ensure_ok_iff, pure_ok_iff]
  constructor
  · intro read
    obtain ⟨found, unpacked, _, holds, same⟩ := read
    subst same
    exact ⟨unpacked, holds⟩
  · intro read
    exact ⟨account, read.1, (), read.2, rfl⟩

theorem resolveNewAuthority_ok {owner : P.Address} {resolved : P.Address × P.Address}
    (returned : resolveNewAuthority K command owner = .ok resolved) :
    Migrate.newOwnerProgrammaticSigner K resolved.1 = .ok resolved.2 ∧ owner ≠ resolved.2 := by
  simp only [resolveNewAuthority, bind_ok_iff, ensure_ok_iff, pure_ok_iff] at returned
  obtain ⟨signingPubkey, -, newOwner, derived, _, differs, rfl⟩ := returned
  exact ⟨derived, differs⟩

/-- What a source was checked against. -/
structure SourceChecked (K : MigrateToolkit P) (client : ChainClient P) (command : TokenCommand P)
    (token : TokenMint P) (source : TokenSource P) : Prop where
  address : ∃ owner kind, sourceAddress K client command token = .ok (source.address, owner, kind)
  reads : ReadsToken K client source.address token.tokenProgram source.account
  mint : source.account.mint = command.mint
  owner : source.account.owner = source.owner
  unguarded : source.account.cpiGuard ≠ some true
  newOwner : Migrate.newOwnerProgrammaticSigner K source.newAuthoritySigningPubkey =
    .ok source.newOwner
  differs : source.owner ≠ source.newOwner

/-- Whether the owner is known up front or read, it is resolved against the new authority. -/
theorem readSource_ok {source : TokenSource P}
    (read : readSource K client command token = .ok source) :
    SourceChecked K client command token source := by
  simp only [readSource, bind_ok_iff, option_mapM_ok_iff, pure_ok_iff] at read
  obtain ⟨found, addressed, early, resolved, raw, fetched, _, program, account, unpacked, _, owned,
    late, settled, _, unguarded, rfl⟩ := read
  obtain ⟨stored, -⟩ := tokenProgramAccount_ok fetched
  obtain ⟨unpacked, mint⟩ := readTokenAccount_ok_iff.mp unpacked
  have accepted : resolveNewAuthority K command (found.2.1.getD account.owner) = .ok late := by
    cases known : found.2.1 with
    | none =>
        rw [known] at resolved settled
        cases resolved
        exact settled
    | some owner =>
        rw [known] at resolved
        cases resolved with
        | some settledEarly => exact settledEarly.trans settled
  obtain ⟨derived, differs⟩ := resolveNewAuthority_ok accepted
  exact ⟨⟨_, _, addressed⟩, ⟨raw, stored, ensure_ok_iff.mp program, unpacked⟩, mint,
    ensure_ok_iff.mp owned,
    ensure_ok_iff.mp unguarded, derived, differs⟩

theorem readAmount_ok {decimals : UInt8} {source : P.Address} {balance amount : UInt64}
    (read : readAmount K command decimals source balance = .ok amount) :
    amount ≤ balance ∧ (0 < amount ∨ amount = balance ∧ command.noClose = false) := by
  unfold readAmount at read
  split at read
  · simp only [bind_ok_iff, ensure_ok_iff, pure_ok_iff] at read
    obtain ⟨parsed, -, _, positive, _, held, rfl⟩ := read
    exact ⟨held, .inl positive⟩
  · simp only [bind_ok_iff, ensure_ok_iff, pure_ok_iff] at read
    obtain ⟨_, some, rfl⟩ := read
    refine ⟨UInt64.le_refl _, some.imp_right fun closes => ⟨rfl, closes⟩⟩

/-- Only an account under the mint's token program counts as an existing destination. -/
theorem findDestination_ok {destination : P.Address} {amount : UInt64}
    {found : Option P.RawAccount}
    (named : ∀ given ∈ command.destination, given = destination)
    (read : findDestination K client command token destination amount = .ok found) :
    (∀ raw ∈ found, client.optionalAccount destination = .ok (some raw) ∧
      raw.owner = token.tokenProgram) ∧
    (found = none → command.destination = none ∧
      (0 < amount → ∃ stored, client.optionalAccount destination = .ok stored ∧
        ∀ raw ∈ stored, raw.owner ≠ token.tokenProgram)) := by
  unfold findDestination at read
  split at read
  · rename_i given chosen
    obtain rfl := named given chosen
    simp only [bind_ok_iff, pure_ok_iff] at read
    obtain ⟨raw, fetched, _, program, rfl⟩ := read
    refine ⟨fun other same => ?_, fun missing => by cases missing⟩
    obtain rfl := Option.some.inj same
    exact ⟨(tokenProgramAccount_ok fetched).1, ensure_ok_iff.mp program⟩
  · rename_i absent
    split at read
    · simp only [bind_ok_iff, pure_ok_iff] at read
      obtain ⟨stored, fetched, rfl⟩ := read
      refine ⟨fun raw kept => ?_, fun missing => ⟨absent, fun _ => ⟨stored, fetched, ?_⟩⟩⟩
      · obtain ⟨rfl, owned⟩ := Option.filter_eq_some_iff.mp kept
        exact ⟨fetched, of_decide_eq_true owned⟩
      · intro raw here owned
        exact Option.filter_eq_none_iff.mp missing raw here (decide_eq_true owned)
    · rename_i zero
      obtain rfl := Except.ok.inj read
      refine ⟨fun raw here => ?_, fun _ => ⟨absent, fun positive => absurd positive zero⟩⟩
      cases here

theorem checkDestination_ok {newOwner destination : P.Address} {amount : UInt64}
    {raw : P.RawAccount} {account : P.TokenAccount}
    (checked : checkDestination K command newOwner destination amount raw = .ok account) :
    K.unpackTokenAccount raw.data = .ok account ∧ account.mint = command.mint ∧
      account.owner = newOwner ∧ (amount = 0 ∨ account.isFrozen = false) := by
  simp only [checkDestination, bind_ok_iff, ensure_ok_iff, pure_ok_iff] at checked
  obtain ⟨found, read, _, owned, _, thawed, rfl⟩ := checked
  obtain ⟨unpacked, mint⟩ := readTokenAccount_ok_iff.mp read
  exact ⟨unpacked, mint, owned, thawed⟩

theorem plan_ok {plan : TokenPlan P} (planned : MigrateToken.plan K client command = .ok plan) :
    plan.Checked K client command := by
  simp only [MigrateToken.plan, bind_ok_iff, option_mapM_ok_iff, pure_ok_iff] at planned
  obtain ⟨token, minted, source, sourced, amount, sized, _, different, found, located,
    destinationAccount, checked, rfl⟩ := planned
  obtain ⟨mint, tokenProgram⟩ := readMint_ok minted
  have origin := readSource_ok sourced
  obtain ⟨enough, moves⟩ := readAmount_ok sized
  have chosen : ∀ given ∈ command.destination, given = command.destination.getD
      (K.getAssociatedTokenAddress source.newOwner command.mint token.tokenProgram) := by
    intro given same
    rw [Option.mem_def.mp same, Option.getD_some]
  obtain ⟨stored, missing⟩ := findDestination_ok chosen located
  have closes : (decide (amount = source.account.amount) && !command.noClose) = true ↔
      amount = source.account.amount ∧ command.noClose = false := by
    rw [Bool.and_eq_true, decide_eq_true_eq, Bool.not_eq_true']
  refine ⟨mint, tokenProgram, minted, origin.address, origin.reads, origin.mint, origin.owner,
    origin.unguarded, origin.newOwner, origin.differs, enough, closes,
    moves.imp_right closes.mpr, rfl, ensure_ok_iff.mp different, fun account here => ?_,
    fun none => ?_⟩
  · cases checked with
    | none => cases here
    | @some raw kept accepted =>
        obtain rfl := Option.some.inj here
        obtain ⟨fetched, program⟩ := stored raw rfl
        obtain ⟨unpacked, rest⟩ := checkDestination_ok accepted
        exact ⟨⟨raw, fetched, program, unpacked⟩, rest⟩
  · cases checked with
    | none =>
        obtain ⟨absent, unused⟩ := missing rfl
        refine ⟨by rw [absent, Option.getD_none], unused⟩
    | some accepted => cases none

end MigrateToken

/-- One step of a token migration. -/
inductive TokenOperation (Address : Type) where
  | create (payer wallet mint tokenProgram : Address)
  | transfer (tokenProgram source mint destination authority : Address) (amount : UInt64)
      (decimals : UInt8)
  | harvest (tokenProgram mint source : Address)
  | close (tokenProgram account recipient authority : Address)
  | memo (signer : Address)
  deriving DecidableEq

/-- The instruction that carries an operation out. -/
def TokenOperation.build (K : MigrateToolkit P) :
    TokenOperation P.Address → Except ProgramError P.Instruction
  | create payer wallet mint tokenProgram =>
      .ok (K.createAssociatedTokenAccountIdempotent payer wallet mint tokenProgram)
  | transfer tokenProgram source mint destination authority amount decimals =>
      K.transferChecked tokenProgram source mint destination authority [] amount decimals
  | harvest tokenProgram mint source => K.harvestWithheldTokensToMint tokenProgram mint [source]
  | close tokenProgram account recipient authority =>
      K.closeAccount tokenProgram account recipient authority []
  | memo signer => .ok (K.buildMemo K.memoProgram (asciiBytes "migrate tokens") [signer])

namespace TokenPlan

variable (command : TokenCommand P) (plan : TokenPlan P)

/-- Who pays for the destination, if the migration creates it. -/
def funder : Option P.Address :=
  if 0 < plan.amount ∧ plan.destinationAccount = none then
    some (command.funder.getD plan.source.owner)
  else none

/-- The source still withholds transfer fees. -/
def Withholds : Prop := ∃ withheld ∈ plan.source.account.transferFeeAmount, 0 < withheld

instance : Decidable plan.Withholds := by
  unfold Withholds
  infer_instance

/-- The operations that a plan stands for, each at its place. -/
def creates : List (TokenOperation P.Address) :=
  (plan.funder command).toList.map fun payer =>
    .create payer plan.source.newOwner command.mint plan.token.tokenProgram

def transfers : List (TokenOperation P.Address) :=
  if 0 < plan.amount then
    [.transfer plan.token.tokenProgram plan.source.address command.mint plan.destination
      plan.source.owner plan.amount plan.token.mint.decimals]
  else []

def harvests : List (TokenOperation P.Address) :=
  if plan.close = true ∧ plan.Withholds then
    [.harvest plan.token.tokenProgram command.mint plan.source.address]
  else []

def closes : List (TokenOperation P.Address) :=
  if plan.close then
    [.close plan.token.tokenProgram plan.source.address plan.rentRecipient
      (plan.source.account.closeAuthority.getD plan.source.owner)]
  else []

def operations : List (TokenOperation P.Address) :=
  plan.creates command ++ plan.transfers command ++ plan.harvests command ++ plan.closes ++
    [.memo plan.source.newOwner]

/-- What the mint and the source were checked for before the instructions were built. -/
structure Sound : Prop where
  thawed : 0 < plan.amount → plan.source.account.isFrozen = false
  transferable : 0 < plan.amount → plan.token.mint.nonTransferable = false
  unhooked : 0 < plan.amount → plan.token.mint.transferHook = none
  startsThawed : 0 < plan.amount → plan.destinationAccount = none →
    plan.token.mint.defaultAccountState ≠ some AccountState.frozen.toByte
  rent : plan.close = true → plan.rentRecipient ≠ plan.source.address
  confidential : plan.close = true →
    ∀ confidential ∈ plan.source.account.confidentialTransfer, confidential.closable = true
  confidentialFee : plan.close = true →
    ∀ closable ∈ plan.source.account.confidentialTransferFee, closable = true

end TokenPlan

namespace MigrateToken

variable {K : MigrateToolkit P} {client : ChainClient P} {command : TokenCommand P}
  {plan : TokenPlan P}

/-- Instructions that build some operations. -/
abbrev Builds (K : MigrateToolkit P) :
    List (TokenOperation P.Address) → List P.Instruction → Prop :=
  List.Forall₂ fun operation instruction => operation.build K = .ok instruction

theorem checkTransfer_ok {value : Unit} (checked : checkTransfer K command plan = .ok value) :
    plan.source.account.isFrozen = false ∧ plan.token.mint.nonTransferable = false ∧
      plan.token.mint.transferHook = none := by
  simp only [checkTransfer, bind_ok_iff, ensure_ok_iff] at checked
  obtain ⟨_, thawed, _, transferable, rest⟩ := checked
  split at rest
  · cases rest
  · rename_i unhooked
    exact ⟨thawed, transferable, unhooked⟩

theorem createInstructions_ok {built : TokenInstructions P} (positive : 0 < plan.amount)
    (returned : createInstructions K command plan = .ok built) :
    Builds K (plan.creates command) built.instructions ∧ built.funder = plan.funder command ∧
      (plan.destinationAccount = none →
        plan.token.mint.defaultAccountState ≠ some AccountState.frozen.toByte) := by
  unfold createInstructions at returned
  split at returned
  · rename_i found
    obtain rfl := Except.ok.inj returned
    have unpaid : plan.funder command = none := by rw [TokenPlan.funder, found]; simp
    rw [TokenPlan.creates, unpaid, found]
    exact ⟨.nil, rfl, fun missing => by cases missing⟩
  · rename_i missing
    simp only [bind_ok_iff, ensure_ok_iff, pure_ok_iff] at returned
    obtain ⟨_, thawed, rfl⟩ := returned
    have paid : plan.funder command = some (command.funder.getD plan.source.owner) :=
      if_pos ⟨positive, missing⟩
    rw [TokenPlan.creates, paid]
    exact ⟨.cons rfl .nil, rfl, fun _ => thawed⟩

theorem transferInstructions_ok {built : TokenInstructions P}
    (returned : transferInstructions K command plan = .ok built) :
    Builds K (plan.creates command ++ plan.transfers command) built.instructions ∧
      built.funder = plan.funder command ∧
      (0 < plan.amount → plan.source.account.isFrozen = false ∧
        plan.token.mint.nonTransferable = false ∧ plan.token.mint.transferHook = none ∧
        (plan.destinationAccount = none →
          plan.token.mint.defaultAccountState ≠ some AccountState.frozen.toByte)) := by
  unfold transferInstructions at returned
  split at returned
  · rename_i positive
    simp only [bind_ok_iff, context_ok_iff, mapError_ok_iff, pure_ok_iff] at returned
    obtain ⟨_, checked, created, creates, moved, transfers, rfl⟩ := returned
    obtain ⟨thawed, transferable, unhooked⟩ := checkTransfer_ok checked
    obtain ⟨built, funder, starts⟩ := createInstructions_ok positive creates
    refine ⟨List.rel_append built ?_, funder, fun _ => ⟨thawed, transferable, unhooked, starts⟩⟩
    rw [TokenPlan.transfers, if_pos positive]
    exact .cons transfers .nil
  · rename_i zero
    obtain rfl := Except.ok.inj returned
    have unpaid : plan.funder command = none := if_neg fun both => zero both.1
    rw [TokenPlan.creates, TokenPlan.transfers, unpaid, if_neg zero]
    exact ⟨.nil, rfl, fun positive => absurd positive zero⟩

theorem harvestInstructions_ok {built : List P.Instruction} (closing : plan.close = true)
    (returned : harvestInstructions K command plan = .ok built) :
    Builds K (plan.harvests command) built := by
  unfold harvestInstructions at returned
  split at returned
  · rename_i withheld
    simp only [bind_ok_iff, context_ok_iff, mapError_ok_iff, pure_ok_iff] at returned
    obtain ⟨harvest, harvests, rfl⟩ := returned
    rw [TokenPlan.harvests, if_pos ⟨closing, withheld⟩]
    exact .cons harvests .nil
  · rename_i free
    obtain rfl := Except.ok.inj returned
    rw [TokenPlan.harvests, if_neg fun both => free both.2]
    exact .nil

theorem closeInstructions_ok {built : List P.Instruction}
    (returned : closeInstructions K command plan = .ok built) :
    Builds K (plan.harvests command ++ plan.closes) built ∧
      (plan.close = true → plan.rentRecipient ≠ plan.source.address ∧
        (∀ confidential ∈ plan.source.account.confidentialTransfer,
          confidential.closable = true) ∧
        ∀ closable ∈ plan.source.account.confidentialTransferFee, closable = true) := by
  unfold closeInstructions at returned
  split at returned
  · rename_i closing
    simp only [checkClosable, bind_ok_iff, ensure_ok_iff, context_ok_iff, mapError_ok_iff,
      pure_ok_iff] at returned
    obtain ⟨_, ⟨_, rent, _, confidential, fee⟩, harvested, harvests, closed, closes, rfl⟩ := returned
    refine ⟨List.rel_append (harvestInstructions_ok closing harvests) ?_,
      fun _ => ⟨rent, confidential, fee⟩⟩
    rw [TokenPlan.closes, if_pos closing]
    exact .cons closes .nil
  · rename_i stays
    obtain rfl := Except.ok.inj returned
    rw [TokenPlan.harvests, TokenPlan.closes, if_neg fun both => stays both.1, if_neg stays]
    exact ⟨.nil, fun closing => absurd closing stays⟩

/-- The instructions are the plan's operations in order, on a plan that was checked. -/
theorem instructions_ok {built : TokenInstructions P}
    (returned : MigrateToken.instructions K command plan = .ok built) :
    Builds K (plan.operations command) built.instructions ∧ built.funder = plan.funder command ∧
      plan.Sound := by
  simp only [MigrateToken.instructions, bind_ok_iff, pure_ok_iff] at returned
  obtain ⟨transferred, transfers, closed, closes, rfl⟩ := returned
  obtain ⟨moved, funder, sound⟩ := transferInstructions_ok transfers
  obtain ⟨ended, closable⟩ := closeInstructions_ok closes
  refine ⟨?_, funder, fun positive => (sound positive).1, fun positive => (sound positive).2.1,
    fun positive => (sound positive).2.2.1, fun positive => (sound positive).2.2.2,
    fun closing => (closable closing).1, fun closing => (closable closing).2.1,
    fun closing => (closable closing).2.2⟩
  rw [TokenPlan.operations, List.append_assoc (plan.creates command ++ plan.transfers command)]
  exact List.rel_append (List.rel_append moved ended) (.cons rfl .nil)

theorem builds_append {first second : List (TokenOperation P.Address)}
    {built : List P.Instruction} (builds : Builds K (first ++ second) built) :
    ∃ early late, built = early ++ late ∧ Builds K first early ∧ Builds K second late := by
  have flipped := List.Forall₂.flip builds
  exact ⟨_, _, (List.take_append_drop first.length built).symm,
    (List.forall₂_take_append _ _ _ flipped).flip, (List.forall₂_drop_append _ _ _ flipped).flip⟩

theorem createInstructions_of_builds {built : List P.Instruction} (positive : 0 < plan.amount)
    (sound : plan.Sound) (builds : Builds K (plan.creates command) built) :
    createInstructions K command plan = .ok ⟨built, plan.funder command⟩ := by
  unfold createInstructions
  split
  · rename_i found
    have unpaid : plan.funder command = none := by rw [TokenPlan.funder, found]; simp
    rw [TokenPlan.creates, unpaid] at builds
    obtain rfl := List.forall₂_nil_left_iff.mp builds
    rw [unpaid]
  · rename_i missing
    have paid : plan.funder command = some (command.funder.getD plan.source.owner) :=
      if_pos ⟨positive, missing⟩
    rw [TokenPlan.creates, paid] at builds
    obtain ⟨instruction, rest, ⟨⟩, none, rfl⟩ := List.forall₂_cons_left_iff.mp builds
    obtain rfl := List.forall₂_nil_left_iff.mp none
    rw [paid]
    exact bind_of_ok (if_pos (sound.startsThawed positive missing))

theorem transferInstructions_of_builds {built : List P.Instruction} (sound : plan.Sound)
    (builds : Builds K (plan.creates command ++ plan.transfers command) built) :
    transferInstructions K command plan = .ok ⟨built, plan.funder command⟩ := by
  unfold transferInstructions
  split
  · rename_i positive
    obtain ⟨created, moved, rfl, creates, transfers⟩ := builds_append builds
    rw [TokenPlan.transfers, if_pos positive] at transfers
    obtain ⟨instruction, rest, moves, none, rfl⟩ := List.forall₂_cons_left_iff.mp transfers
    obtain rfl := List.forall₂_nil_left_iff.mp none
    have checked : checkTransfer K command plan = .ok () := by
      simp [checkTransfer, sound.thawed positive, sound.transferable positive,
        sound.unhooked positive]
    simp only [bind_ok_iff, context_ok_iff, mapError_ok_iff, pure_ok_iff]
    exact ⟨(), checked, _, createInstructions_of_builds positive sound creates, instruction, moves,
      rfl⟩
  · rename_i zero
    have unpaid : plan.funder command = none := if_neg fun both => zero both.1
    rw [TokenPlan.creates, TokenPlan.transfers, unpaid, if_neg zero] at builds
    obtain rfl := List.forall₂_nil_left_iff.mp builds
    rw [unpaid]

theorem closeInstructions_of_builds {built : List P.Instruction} (sound : plan.Sound)
    (builds : Builds K (plan.harvests command ++ plan.closes) built) :
    closeInstructions K command plan = .ok built := by
  unfold closeInstructions
  split
  · rename_i closing
    obtain ⟨harvested, closed, rfl, harvests, closes⟩ := builds_append builds
    rw [TokenPlan.closes, if_pos closing] at closes
    obtain ⟨instruction, rest, ended, none, rfl⟩ := List.forall₂_cons_left_iff.mp closes
    obtain rfl := List.forall₂_nil_left_iff.mp none
    have harvesting : harvestInstructions K command plan = .ok harvested := by
      unfold harvestInstructions
      split
      · rename_i withheld
        rw [TokenPlan.harvests, if_pos ⟨closing, withheld⟩] at harvests
        obtain ⟨harvest, rest, built, none, rfl⟩ := List.forall₂_cons_left_iff.mp harvests
        obtain rfl := List.forall₂_nil_left_iff.mp none
        simp only [bind_ok_iff, context_ok_iff, mapError_ok_iff, pure_ok_iff]
        exact ⟨harvest, built, rfl⟩
      · rename_i free
        rw [TokenPlan.harvests, if_neg fun both => free both.2] at harvests
        rw [List.forall₂_nil_left_iff.mp harvests]
    simp only [checkClosable, bind_ok_iff, ensure_ok_iff, context_ok_iff, mapError_ok_iff,
      pure_ok_iff]
    exact ⟨(), ⟨(), sound.rent closing, (), sound.confidential closing,
      sound.confidentialFee closing⟩, harvested, harvesting, instruction, ended, rfl⟩
  · rename_i stays
    rw [TokenPlan.harvests, TokenPlan.closes, if_neg fun both => stays both.1, if_neg stays]
      at builds
    rw [List.forall₂_nil_left_iff.mp builds]

/-- A sound plan whose operations build has instructions. -/
theorem instructions_of_builds {built : List P.Instruction} (sound : plan.Sound)
    (builds : Builds K (plan.operations command) built) :
    MigrateToken.instructions K command plan = .ok ⟨built, plan.funder command⟩ := by
  rw [TokenPlan.operations, List.append_assoc (plan.creates command ++ plan.transfers command)]
    at builds
  obtain ⟨before, last, rfl, builds, memo⟩ := builds_append builds
  obtain ⟨moved, ended, rfl, moves, ends⟩ := builds_append builds
  obtain ⟨instruction, rest, ⟨⟩, none, rfl⟩ := List.forall₂_cons_left_iff.mp memo
  obtain rfl := List.forall₂_nil_left_iff.mp none
  rw [MigrateToken.instructions, bind_of_ok (transferInstructions_of_builds sound moves),
    bind_of_ok (closeInstructions_of_builds sound ends)]
  rfl

/-- Exactly when a migration outputs a message. -/
theorem run_iff : (∃ output, MigrateToken.run K client command = .ok output) ↔
    ∃ plan, MigrateToken.plan K client command = .ok plan ∧ plan.Sound ∧
      ∃ instructions message, Builds K (plan.operations command) instructions ∧
        Migrate.executionMessage K plan.source.newOwner instructions = .ok message := by
  simp only [MigrateToken.run, bind_ok_iff, pure_ok_iff]
  constructor
  · rintro ⟨output, plan, planned, built, builds, message, compiled, -⟩
    obtain ⟨operations, -, sound⟩ := instructions_ok builds
    exact ⟨plan, planned, sound, built.instructions, message, operations, compiled⟩
  · rintro ⟨plan, planned, sound, built, message, builds, compiled⟩
    exact ⟨_, plan, planned, _, instructions_of_builds sound builds, message, compiled, rfl⟩

/-- The plan and the instructions behind an output, and how it reports them. -/
theorem run_ok {output : TokenMigrationOutput}
    (ran : MigrateToken.run K client command = .ok output) :
    ∃ plan built message, MigrateToken.plan K client command = .ok plan ∧
      MigrateToken.instructions K command plan = .ok built ∧
      Migrate.executionMessage K plan.source.newOwner built.instructions = .ok message ∧
      output = { Migrate.output K plan.source.newOwner plan.source.newAuthoritySigningPubkey
          message with
        mint := K.showAddress command.mint
        tokenProgram := K.showAddress plan.token.tokenProgram
        amount := realNumberStringTrimmed plan.amount plan.token.mint.decimals
        source := K.showAddress plan.source.address
        destination := K.showAddress plan.destination
        funder := built.funder.map K.showAddress
        transferFee := decide (0 < plan.amount) && plan.token.mint.hasTransferFee
        rentRecipient := if plan.close then some (K.showAddress plan.rentRecipient) else none } := by
  simp only [MigrateToken.run, bind_ok_iff, pure_ok_iff] at ran
  obtain ⟨plan, planned, built, builds, message, compiled, rfl⟩ := ran
  exact ⟨plan, built, message, planned, builds, compiled, rfl⟩

end MigrateToken

end ProgrammaticSigner
