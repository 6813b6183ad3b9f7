import ProgrammaticSigner.Cli.Reference
import ProgrammaticSigner.Migrate.Transfers

set_option autoImplicit false

/- A toolkit for migrations over the reference platform, which computes and has every law.
Even addresses are on the curve. Accounts keep their addresses tallied, at the offsets of the
real layouts. -/
namespace ProgrammaticSigner

namespace Reference

/-- An address at an offset of an account. -/
def addressAt (data : Bytes) (offset : Nat) : Except Failure Nat :=
  Outcome.okOr ((Wire.tally.decode (data.drop offset)).map Prod.fst) ["invalid"]

/-- An address behind a u32 option tag. -/
def optionAt (data : Bytes) (offset : Nat) : Except Failure (Option Nat) :=
  if (data.drop offset).take 4 = [0, 0, 0, 0] then .ok none
  else if (data.drop offset).take 4 = [1, 0, 0, 0] then
    (addressAt data (offset + 4)).map some
  else .error ["invalid"]

def uint64At (data : Bytes) (offset : Nat) : UInt64 :=
  UInt64.ofNat (Wire.leValue ((data.drop offset).take 8))

def stakeMetaAt (data : Bytes) : Except Failure (StakeMeta Nat) := do
  let staker ← addressAt data 12
  let withdrawer ← addressAt data 44
  let custodian ← addressAt data 92
  return ⟨⟨staker, withdrawer⟩, ⟨(uint64At data 76).toNat, uint64At data 84, custodian⟩⟩

def deserializeStake (data : Bytes) : Except Failure (StakeState Nat) :=
  match data.head? with
  | some 0 => .ok .uninitialized
  | some 1 => (stakeMetaAt data).map .initialized
  | some 2 => (stakeMetaAt data).map .stake
  | some 3 => .ok .rewardsPool
  | _ => .error ["invalid"]

def deserializeVote (data : Bytes) : Except Failure (VoteStateVersions Nat) := do
  let withdrawer ← addressAt data 36
  match data.head? with
  | some 1 => return .v1_14_11 ⟨withdrawer, true⟩
  | some 2 => return .v3 ⟨withdrawer, true⟩
  | some 3 => return .v4 ⟨withdrawer, true⟩
  | _ => throw ["invalid"]

def deserializeLoader (data : Bytes) : Except Failure (LoaderState Nat) :=
  match data.head? with
  | some 0 => .ok .uninitialized
  | some 2 => (addressAt data 4).map .program
  | some 3 =>
      if data[12]? = some 0 then .ok (.programData (uint64At data 4) none)
      else (addressAt data 13).map fun authority => .programData (uint64At data 4) (some authority)
  | _ => .error ["invalid"]

/-- The first bytes of a mint, which has no extensions. -/
def unpackMint (data : Bytes) : Except Failure (Mint Nat) := do
  Outcome.ensure (data.length = 82 ∨ 165 < data.length ∧ data.length ≠ 355 ∧ data[165]? = some 1)
    ["not a mint"]
  let base := data.take 82
  Outcome.ensure (base[45]? = some 1) ["uninitialized"]
  let mintAuthority ← optionAt base 0
  let freezeAuthority ← optionAt base 46
  return ⟨mintAuthority, freezeAuthority, (base.drop 44).headD 0, false, none, none, false, false,
    none⟩

abbrev RawTokenAccount := Nat × Nat × UInt64 × Option Nat × UInt64 × UInt8 × Option Nat ×
  Option UInt8 × Option UInt64 × Option (UInt8 × UInt8) × Option UInt8 × Option UInt8

def tokenAccountWire : Wire RawTokenAccount :=
  Wire.tally.pair (Wire.tally.pair (Wire.uint64.pair (Wire.tally.option.pair (Wire.uint64.pair
    (Wire.byte.pair (Wire.tally.option.pair (Wire.byte.option.pair (Wire.uint64.option.pair
      ((Wire.byte.pair Wire.byte).option.pair (Wire.byte.option.pair Wire.byte.option))))))))))

def isSet (byte : UInt8) : Bool := byte ≠ 0

def accountState (byte : UInt8) : AccountState :=
  if byte = 0 then .uninitialized else if byte = 2 then .frozen else .initialized

def unpackTokenAccount (data : Bytes) : Except Failure (TokenAccount Nat) :=
  (Outcome.okOr (tokenAccountWire.deserializeExact data) ["not a token account"]).map fun raw =>
    let (mint, owner, amount, delegate, delegatedAmount, state, closeAuthority, cpiGuard,
      transferFeeAmount, confidentialTransfer, confidentialTransferFee, memoTransfer) := raw
    ⟨mint, owner, amount, delegate, delegatedAmount, accountState state, closeAuthority,
      cpiGuard.map isSet, transferFeeAmount,
      confidentialTransfer.map fun flags => ⟨isSet flags.1, isSet flags.2⟩,
      confidentialTransferFee.map isSet, memoTransfer.map isSet⟩

def flag (set : Bool) : UInt8 := if set then 1 else 0

def packTokenAccount (account : TokenAccount Nat) : Bytes :=
  tokenAccountWire.encode (account.mint, account.owner, account.amount, account.delegate,
    account.delegatedAmount, account.state.toByte, account.closeAuthority,
    account.cpiGuard.map flag, account.transferFeeAmount,
    account.confidentialTransfer.map fun confidential =>
      (flag confidential.closable, flag confidential.allowNonConfidentialCredits),
    account.confidentialTransferFee.map flag, account.memoTransfer.map flag)

/-- The token program builders refuse other programs. -/
def forTokenProgram (tokenProgram : Nat) (instruction : Instruction Nat) :
    Except ProgramError (Instruction Nat) :=
  if tokenProgram = 18 ∨ tokenProgram = 20 then .ok instruction else .error .incorrectProgramId

def lockupInForce (lockup : StakeLockup Nat) (clock : Clock) (custodian : Option Nat) : Bool :=
  custodian ≠ some lockup.custodian &&
    (clock.unixTimestamp < lockup.unixTimestamp || clock.epoch < lockup.epoch)

def voteUninitialized : VoteStateVersions Nat → Bool
  | .uninitialized => true
  | .v1_14_11 state => !state.hasAuthorizedVoters
  | .v3 state => !state.hasAuthorizedVoters
  | .v4 state => !state.hasAuthorizedVoters

def signersOf (signers : List Nat) : List (AccountMeta Nat) :=
  signers.map fun signer => .newReadonly signer true

open Arguments

/-- No value of an option looks like an option itself. -/
def readArguments : List Text → Option Arguments
  | [] => some ⟨[], []⟩
  | [word] => if isOption word then none else some ⟨[word], []⟩
  | word :: next :: rest =>
      if isOption word then
        if isOption next then none
        else (readArguments rest).map fun later =>
          { later with options := (word, next) :: later.options }
      else (readArguments (next :: rest)).map fun later =>
        { later with positional := word :: later.positional }

def readFlag (flag : Text) : List Text → Option (Nat × Arguments)
  | [] => some (0, ⟨[], []⟩)
  | [word] =>
      if word = flag then some (1, ⟨[], []⟩)
      else if isOption word then none
      else some (0, ⟨[word], []⟩)
  | word :: next :: rest =>
      if word = flag then
        (readFlag flag (next :: rest)).map fun later => (later.1 + 1, later.2)
      else if isOption word then
        if isOption next then none
        else (readFlag flag rest).map fun later =>
          (later.1, { later.2 with options := (word, next) :: later.2.options })
      else (readFlag flag (next :: rest)).map fun later =>
        (later.1, { later.2 with positional := word :: later.2.positional })

def commandLine : CommandLine := ⟨fun line => line.splitOn ' ', readArguments, readFlag⟩

theorem readArguments_options {options : List (Text × Text)} (well : WellSorted options) :
    readArguments (optionWords options) = some ⟨[], options⟩ := by
  induction options with
  | nil => rfl
  | cons option rest ih =>
      obtain ⟨named, plain⟩ := well option List.mem_cons_self
      have later := ih fun other member => well other (List.mem_cons_of_mem _ member)
      have words : optionWords (option :: rest) = option.1 :: option.2 :: optionWords rest := rfl
      rw [words, readArguments, if_pos named, plain, later]
      rfl

theorem readArguments_positional {word : Text} (plain : isOption word = false)
    (words : List Text) : readArguments (word :: words) = (readArguments words).map fun later =>
      { later with positional := word :: later.positional } := by
  cases words with
  | nil => simp [readArguments, plain]
  | cons next rest => simp [readArguments, plain]

/-- Without the flag, its words are read as before. -/
theorem readFlag_absent {flag : Text} {words : List Text} (absent : flag ∉ words) :
    readFlag flag words = (readArguments words).map fun arguments => (0, arguments) := by
  fun_induction readFlag flag words with
  | case1 => rfl
  | case2 | case5 => simp at absent
  | case3 word _ option => simp [readArguments, option]
  | case4 word _ plain => simp [readArguments, plain]
  | case6 word next rest _ option option' => simp [readArguments, option, option']
  | case7 word next rest _ option plain ih =>
      have later : flag ∉ rest := fun listed =>
        absent (List.mem_cons_of_mem _ (List.mem_cons_of_mem _ listed))
      simp [readArguments, option, plain, ih later, Function.comp_def]
  | case8 word next rest _ plain ih =>
      have later : flag ∉ next :: rest := fun listed => absent (List.mem_cons_of_mem _ listed)
      simp [readArguments, plain, ih later, Function.comp_def]

theorem commandLine_laws : commandLine.Laws where
  words words nonempty plain := by
    refine List.splitOn_intercalate ' ' (fun word among blank => ?_) nonempty
    exact absurd (List.all_eq_true.mp (plain word among).2 ' ' blank) (by decide)
  read argument options plain well := by
    refine (readArguments_positional plain _).trans ?_
    rw [readArguments_options well]
    rfl
  readFlag flag argument options plain well absent := by
    refine (readFlag_absent absent).trans ?_
    rw [readArguments_positional plain, readArguments_options well]
    rfl

end Reference

abbrev MigrateToolkit.reference : MigrateToolkit Platform.reference where
  toToolkit := Toolkit.reference
  commandLine := Reference.commandLine
  isOnCurve address := address % 2 = 0
  stakeProgram := 14
  voteProgram := 16
  tokenProgram := 18
  token2022Program := 20
  memoProgram := 22
  deserializeStake := Reference.deserializeStake
  deserializeVote := Reference.deserializeVote
  deserializeLoader := Reference.deserializeLoader
  unpackMint := Reference.unpackMint
  unpackTokenAccount := Reference.unpackTokenAccount
  isInForce := Reference.lockupInForce
  isUninitialized := Reference.voteUninitialized
  buildMemo program data signers := ⟨program, Reference.signersOf signers, data⟩
  setAuthority tokenProgram account newAuthority authorityType current signers :=
    Reference.forTokenProgram tokenProgram ⟨tokenProgram,
      .new account false :: .newReadonly current true :: Reference.signersOf signers,
      6 :: (match authorityType with | .mintTokens => 0 | .freezeAccount => 1) ::
        Wire.tally.option.encode newAuthority⟩
  authorizeStake account current newAuthority role custodian :=
    ⟨14, [.new account false, .newReadonly current true, .newReadonly newAuthority true] ++
      Reference.signersOf custodian.toList,
      [10, match role with | .staker => 0 | .withdrawer => 1]⟩
  authorizeVote account current newAuthority role :=
    ⟨16, [.new account false, .newReadonly current true, .newReadonly newAuthority true],
      [7, match role with | .voter => 0 | .withdrawer => 1]⟩
  setUpgradeAuthorityChecked program current newAuthority :=
    ⟨10, [.new program false, .newReadonly current true, .newReadonly newAuthority true], [7]⟩
  transfer source destination lamports :=
    ⟨0, [.new source true, .new destination false], 2 :: Wire.uint64.encode lamports⟩
  getAssociatedTokenAddress wallet mint tokenProgram := 2 * (wallet + mint + tokenProgram) + 1
  createAssociatedTokenAccountIdempotent payer wallet mint tokenProgram :=
    ⟨24, [.new payer true, .new (2 * (wallet + mint + tokenProgram) + 1) false,
      .newReadonly wallet false, .newReadonly mint false, .newReadonly 0 false,
      .newReadonly tokenProgram false], [1]⟩
  transferChecked tokenProgram source mint destination authority signers amount decimals :=
    Reference.forTokenProgram tokenProgram ⟨tokenProgram,
      [.new source false, .newReadonly mint false, .new destination false,
        .newReadonly authority true] ++ Reference.signersOf signers,
      12 :: Wire.uint64.encode amount ++ [decimals]⟩
  harvestWithheldTokensToMint tokenProgram mint sources :=
    Reference.forTokenProgram tokenProgram ⟨tokenProgram,
      .new mint false :: sources.map fun source => .new source false, [26, 4]⟩
  closeAccount tokenProgram account destination owner signers :=
    Reference.forTokenProgram tokenProgram ⟨tokenProgram,
      [.new account false, .new destination false, .newReadonly owner true] ++
        Reference.signersOf signers, [9]⟩

namespace Reference

theorem grantsSigner_of_mem {program : Nat} {accounts : List (AccountMeta Nat)} {data : Bytes}
    {address : Nat} (listed : AccountMeta.newReadonly address true ∈ accounts) :
    (⟨program, accounts, data⟩ : Instruction Nat).grantsSigner address = true :=
  Instruction.grantsSigner_iff.mpr ⟨_, listed, rfl, rfl⟩

theorem approvalLaws : MigrateToolkit.reference.ApprovalLaws where
  memo _ _ _ _ listed := grantsSigner_of_mem (List.mem_map_of_mem listed)
  stake _ _ _ _ _ := grantsSigner_of_mem
    (List.mem_append_left _ (List.mem_cons_of_mem _ (List.mem_cons_of_mem _ List.mem_cons_self)))
  vote _ _ _ _ := grantsSigner_of_mem
    (List.mem_cons_of_mem _ (List.mem_cons_of_mem _ List.mem_cons_self))
  program _ _ _ := grantsSigner_of_mem
    (List.mem_cons_of_mem _ (List.mem_cons_of_mem _ List.mem_cons_self))

theorem derivesOffCurve : MigrateToolkit.reference.DerivesOffCurve := by
  intro authority
  obtain ⟨half, odd⟩ : ∃ half, deriveAddress (P := Platform.reference)
      Platform.reference.signerProgram authority = 2 * half + 1 := ⟨_, rfl⟩
  have reduced (half : Nat) : (2 * half + 1) % 2 ≠ 0 := by omega
  rw [odd]
  exact decide_eq_false (reduced half)

theorem compileLaws : MigrateToolkit.reference.CompileLaws where
  feePayer _ _ _ _ _ compiled := by
    obtain ⟨_, _, same⟩ := Outcome.bind_ok_iff.mp compiled
    obtain ⟨_, _, same⟩ := Outcome.bind_ok_iff.mp same
    obtain rfl := Outcome.pure_ok_iff.mp same
    rfl
  instructions _ _ _ _ _ compiled := by
    obtain ⟨_, _, same⟩ := Outcome.bind_ok_iff.mp compiled
    obtain ⟨_, collected, same⟩ := Outcome.bind_ok_iff.mp same
    obtain rfl := Outcome.pure_ok_iff.mp same
    exact messageLaws.compiles _ _ _ collected

/-- A stake account without a lockup. -/
def stakeData (staker withdrawer : Nat) : Bytes :=
  field 12 [1] ++ field 32 (Wire.tally.encode staker) ++ field 156 (Wire.tally.encode withdrawer)

def optionData (address : Option Nat) : Bytes :=
  field 36 (address.elim [0, 0, 0, 0] fun address => [1, 0, 0, 0] ++ Wire.tally.encode address)

/-- A mint without extensions. -/
def mintData (mintAuthority freezeAuthority : Option Nat) : Bytes :=
  optionData mintAuthority ++ field 8 [] ++ [9, 1] ++ optionData freezeAuthority

/-- A mint with room for extensions. -/
def extendedMintData (mintAuthority freezeAuthority : Option Nat) : Bytes :=
  mintData mintAuthority freezeAuthority ++ field 83 [] ++ [1]

/-- Code that is run to see that it returns. -/
theorem exists_of_isOk {Error α : Type} {outcome : Except Error α} (returned : outcome.isOk = true) :
    ∃ value, outcome = .ok value := by
  cases outcome with
  | error reason => cases returned
  | ok value => exact ⟨value, rfl⟩

/-- A client of a chain that stands still. -/
def chainClient (snapshot : List (Nat × RawAccount Nat)) : ChainClient Platform.reference where
  configPubkey := .error ["no keypair"]
  optionalAccount address :=
    .ok ((snapshot.find? fun entry => entry.1 = address).map Prod.snd)
  minimumBalanceForRentExemption size := .ok (UInt64.ofNat (size + 1))
  clock := .ok ⟨0, 0⟩
  programAccounts _ _ _ := .error ["not indexed"]

end Reference

end ProgrammaticSigner
