import ProgrammaticSigner.Migrate.ScanLists
import ProgrammaticSigner.Migrate.ScanReport

set_option autoImplicit false

/- What the other categories of `migrate scan` report: the vote accounts, the programs behind
program data, the token accounts under both token programs, and the SOL. -/
namespace ProgrammaticSigner

open Outcome

variable {P : Platform}

/-- Documented layouts of what the Vote Program and the loader keep. -/
structure KeepsPrograms (K : MigrateToolkit P) (snapshot : P.Snapshot) : Prop where
  vote : ∀ entry ∈ snapshot, entry.2.owner = K.voteProgram → ∀ state withdrawer,
    K.deserializeVote entry.2.data = .ok state →
    MigrateVote.authorizedWithdrawer K state entry.1 = .ok withdrawer →
    RpcFilter.allows entry.2.data (.memcmp MigrateScan.voteWithdrawerOffset
      (P.addressWire.encode withdrawer)) = true
  programData : ∀ entry ∈ snapshot, entry.2.owner = P.upgradeableLoader → ∀ slot authority,
    K.deserializeLoader entry.2.data = .ok (.programData slot (some authority)) →
    RpcFilter.allows entry.2.data (.memcmp 0 MigrateScan.programDataTag) = true ∧
      RpcFilter.allows entry.2.data (.memcmp MigrateScan.upgradeAuthorityOptionOffset [1]) = true ∧
      RpcFilter.allows entry.2.data (.memcmp MigrateScan.upgradeAuthorityOffset
        (P.addressWire.encode authority)) = true
  /-- What follows the header of program data is not read. -/
  header : ∀ entry ∈ snapshot, entry.2.owner = P.upgradeableLoader → ∀ slot authority,
    K.deserializeLoader (entry.2.data.take MigrateScan.programDataMetadataSize) =
        .ok (.programData slot authority) ↔
      K.deserializeLoader entry.2.data = .ok (.programData slot authority)
  program : ∀ entry ∈ snapshot, entry.2.owner = P.upgradeableLoader →
    entry.2.data.length = MigrateScan.programSize → ∀ programData,
    K.deserializeLoader entry.2.data = .ok (.program programData) ↔
      RpcFilter.allows entry.2.data (.memcmp 0 MigrateScan.programTag) = true ∧
      RpcFilter.allows entry.2.data (.memcmp MigrateScan.programDataAddressOffset
        (P.addressWire.encode programData)) = true

namespace MigrateScan

/-- A vote account of the snapshot, with its withdrawer. -/
structure VoteAt (K : MigrateToolkit P) (snapshot : P.Snapshot) (address : P.Address)
    (account : P.RawAccount) (withdrawer : P.Address) : Prop where
  stored : entryAt snapshot address = some (address, account)
  owned : account.owner = K.voteProgram
  authorized : ∃ state, K.deserializeVote account.data = .ok state ∧
    MigrateVote.authorizedWithdrawer K state address = .ok withdrawer

/-- Program data of the snapshot, with its upgrade authority. -/
structure ProgramDataAt (K : MigrateToolkit P) (snapshot : P.Snapshot)
    (address authority : P.Address) (account : P.RawAccount) : Prop where
  stored : entryAt snapshot address = some (address, account)
  owned : account.owner = P.upgradeableLoader
  upgradeable : ∃ slot, K.deserializeLoader account.data = .ok (.programData slot (some authority))

/-- A program of the snapshot in an account of just its size, with its program data. The loader
also runs programs in larger accounts, which the scan does not ask for. -/
structure ProgramAt (K : MigrateToolkit P) (snapshot : P.Snapshot)
    (address programData : P.Address) (account : P.RawAccount) : Prop where
  stored : entryAt snapshot address = some (address, account)
  owned : account.owner = P.upgradeableLoader
  sized : account.data.length = programSize
  points : K.deserializeLoader account.data = .ok (.program programData)

/-- An account of a token program in the snapshot. -/
structure TokenAt (K : MigrateToolkit P) (snapshot : P.Snapshot) (tokenProgram address : P.Address)
    (account : P.TokenAccount) : Prop where
  stored : ∃ found, entryAt snapshot address = some (address, found) ∧
    found.owner = tokenProgram ∧ K.unpackTokenAccount found.data = .ok account

/-- The mint of a token account, under the same token program. -/
structure TokenMintAt (K : MigrateToolkit P) (snapshot : P.Snapshot)
    (tokenProgram : P.Address) (account : P.TokenAccount) (mint : P.Mint) : Prop where
  stored : ∃ found, MintAt K snapshot account.mint found mint ∧ found.owner = tokenProgram

end MigrateScan

/-- The token accounts that the RPC node finds are those of the snapshot, parsed as documented:
amounts are decimal, and the decimals are the mint's. -/
structure ScanClient.Serves (K : MigrateToolkit P) (client : ScanClient P)
    (snapshot : P.Snapshot) : Prop where
  chain : client.toChainClient.Serves snapshot
  distinct : ∀ owner tokenProgram found,
    client.tokenAccountsByOwner owner tokenProgram = .ok found → (found.map Prod.fst).Nodup
  parsed : ∀ owner tokenProgram found,
    client.tokenAccountsByOwner owner tokenProgram = .ok found → ∀ address shown,
    (address, shown) ∈ found → ∃ account mint,
      MigrateScan.TokenAt K snapshot tokenProgram address account ∧ account.owner = owner ∧
      MigrateScan.TokenMintAt K snapshot tokenProgram account mint ∧
      shown = ⟨K.showAddress account.mint, Nat.toDigits 10 account.amount.toNat, mint.decimals⟩
  complete : ∀ owner tokenProgram found,
    client.tokenAccountsByOwner owner tokenProgram = .ok found → ∀ address account,
    MigrateScan.TokenAt K snapshot tokenProgram address account → account.owner = owner →
    ∃ shown, (address, shown) ∈ found

section Kept

variable {client : ChainClient P} {snapshot : P.Snapshot}

/-- The matches of a query that are kept are accounts of the snapshot, each once. -/
theorem ChainClient.Serves.mem_kept (serves : client.Serves snapshot) {program : P.Address}
    {filters : List RpcFilter} {slice : Option DataSlice} {found : P.Snapshot}
    (answered : client.programAccounts program filters slice = .ok found)
    (keep : P.Address × P.RawAccount → Bool) :
    ((found.filter keep).map Prod.fst).Nodup ∧
    ∀ address account, (address, account) ∈ found.filter keep ↔
      ∃ stored, entryAt snapshot address = some (address, stored) ∧
        asksFor program filters stored = true ∧ keep (address, account) = true ∧
        account = stored.sliced slice := by
  obtain ⟨distinct, looked⟩ := serves.kept answered keep
  refine ⟨distinct, fun address account => ?_⟩
  have found_iff := looked address (address, account)
  rw [Listing.find?_eq_some_iff distinct, and_iff_left rfl] at found_iff
  rw [found_iff]
  constructor
  · intro held
    obtain ⟨⟨address', stored⟩, present, asked, same, kept⟩ := held
    obtain ⟨rfl, rfl⟩ := Prod.mk.inj same
    exact ⟨stored, present, asked, kept, rfl⟩
  · intro held
    obtain ⟨stored, present, asked, kept, rfl⟩ := held
    exact ⟨(address, stored), present, asked, rfl, kept⟩

end Kept

namespace MigrateScan

variable {K : MigrateToolkit P} {client : ChainClient P} {snapshot : P.Snapshot}

section Vote

theorem holdsVote_iff {owner : P.Address} {entry : P.Address × P.RawAccount} :
    holdsVote K owner entry = true ↔ entry.2.owner = K.voteProgram ∧
      ∃ state, K.deserializeVote entry.2.data = .ok state ∧
        MigrateVote.authorizedWithdrawer K state entry.1 = .ok owner := by
  have decoded (withdrawer : P.Address) :
      (ChainClient.decodeVoteAccount K entry.1 entry.2 >>= fun state =>
          MigrateVote.authorizedWithdrawer K state entry.1) = .ok withdrawer ↔
        entry.2.owner = K.voteProgram ∧ ∃ state, K.deserializeVote entry.2.data = .ok state ∧
          MigrateVote.authorizedWithdrawer K state entry.1 = .ok withdrawer := by
    simp only [ChainClient.decodeVoteAccount, bind_ok_iff, ensure_ok_iff, context_ok_iff,
      exists_const, exists_and_left, and_assoc]
  rw [← decoded owner]
  unfold holdsVote
  split
  · rename_i withdrawer read
    rw [read, decide_eq_true_eq]
    exact ⟨congrArg Except.ok, Except.ok.inj⟩
  · rename_i reason refused
    rw [refused]
    exact iff_of_false Bool.false_ne_true fun same => by cases same

/-- Every vote account that the owner can withdraw from, once. -/
theorem scanVote_reports (serves : client.Serves snapshot) (keeps : KeepsPrograms K snapshot)
    (owner : P.Address) (newAuthorityArgs : List Text) :
    ∃ items, scanVote K client owner newAuthorityArgs = .ok items ∧
      Listing.Reports (fun address => ∃ account, VoteAt K snapshot address account owner)
        (fun address item => ∃ account, VoteAt K snapshot address account owner ∧
          item = voteItem K newAuthorityArgs (address, account)) items := by
  obtain ⟨found, answered, -⟩ := serves.programAccounts K.voteProgram
    [.memcmp voteWithdrawerOffset (P.addressWire.encode owner)] none
  obtain ⟨distinct, members⟩ := serves.mem_kept answered (holdsVote K owner)
  have kept (address : P.Address) (account : P.RawAccount) :
      (address, account) ∈ found.filter (holdsVote K owner) ↔
        VoteAt K snapshot address account owner := by
    rw [members]
    constructor
    · intro held
      obtain ⟨stored, present, -, holds, rfl⟩ := held
      obtain ⟨owned, authorized⟩ := holdsVote_iff.mp holds
      exact ⟨present, owned, authorized⟩
    · intro here
      obtain ⟨state, deserialized, authorized⟩ := here.authorized
      obtain ⟨listed, -⟩ := (entryAt_eq_some_iff serves.distinct).mp here.stored
      have placed := keeps.vote _ listed here.owned _ _ deserialized authorized
      refine ⟨account, here.stored, ?_, holdsVote_iff.mpr ⟨here.owned, here.authorized⟩, rfl⟩
      simp only [asksFor, here.owned, List.all_cons, List.all_nil, Bool.and_true, placed,
        decide_true]
  refine ⟨_, bind_of_ok answered, ?_⟩
  refine (Listing.reports_map distinct (voteItem K newAuthorityArgs)).imp (fun address => ?_)
    fun address item _ described => ?_
  · constructor
    · intro due
      obtain ⟨⟨address, account⟩, among, rfl⟩ := due
      exact ⟨account, (kept address account).mp among⟩
    · intro due
      obtain ⟨account, here⟩ := due
      exact ⟨_, (kept address account).mpr here, rfl⟩
  · obtain ⟨⟨address, account⟩, among, rfl, same⟩ := described
    exact ⟨account, (kept address account).mp among, same⟩

end Vote

section Program

theorem holdsProgramData_iff {owner : P.Address} {entry : P.Address × P.RawAccount} :
    holdsProgramData K owner entry = true ↔ entry.2.owner = P.upgradeableLoader ∧
      ∃ slot, K.deserializeLoader entry.2.data = .ok (.programData slot (some owner)) := by
  have decoded (state : LoaderState P.Address) :
      ChainClient.decodeUpgradeableLoaderAccount K entry.1 entry.2 = .ok state ↔
        entry.2.owner = P.upgradeableLoader ∧ K.deserializeLoader entry.2.data = .ok state := by
    simp only [ChainClient.decodeUpgradeableLoaderAccount, bind_unit_ok_iff, ensure_ok_iff,
      context_ok_iff]
  simp only [← exists_and_left, ← decoded]
  unfold holdsProgramData
  split
  · rename_i slot authority read
    simp [read]
  · rename_i other
    refine iff_of_false Bool.false_ne_true fun holds => ?_
    obtain ⟨slot, read⟩ := holds
    exact other slot owner read

/-- Program data is kept from its header just if the whole account is the owner's. -/
theorem mem_programData (serves : client.Serves snapshot) (keeps : KeepsPrograms K snapshot)
    {owner : P.Address} {found : P.Snapshot}
    (answered : client.programAccounts P.upgradeableLoader
      [.memcmp 0 programDataTag, .memcmp upgradeAuthorityOptionOffset [1],
        .memcmp upgradeAuthorityOffset (P.addressWire.encode owner)]
      (some ⟨0, programDataMetadataSize⟩) = .ok found) (address : P.Address) :
    (∃ account, (address, account) ∈ found.filter (holdsProgramData K owner)) ↔
      ∃ account, ProgramDataAt K snapshot address owner account := by
  obtain ⟨-, members⟩ := serves.mem_kept answered (holdsProgramData K owner)
  simp only [members, holdsProgramData_iff]
  constructor
  · intro held
    obtain ⟨account, stored, present, asked, ⟨owned, slot, deserialized⟩, rfl⟩ := held
    obtain ⟨listed, -⟩ := (entryAt_eq_some_iff serves.distinct).mp present
    exact ⟨stored, present, owned, slot, (keeps.header _ listed owned slot _).mp deserialized⟩
  · intro here
    obtain ⟨account, present, owned, slot, deserialized⟩ := here
    obtain ⟨listed, -⟩ := (entryAt_eq_some_iff serves.distinct).mp present
    obtain ⟨tagged, isSome, placed⟩ := keeps.programData _ listed owned slot _ deserialized
    have header := (keeps.header _ listed owned slot _).mpr deserialized
    refine ⟨account.sliced (some ⟨0, programDataMetadataSize⟩), account, present, ?_,
      ⟨owned, slot, header⟩, rfl⟩
    simp only [asksFor, owned, List.all_cons, List.all_nil, tagged, isSome, placed, decide_true,
      Bool.and_self]

/-- The programs that point to program data. -/
theorem scanProgramsOf_reports (serves : client.Serves snapshot) (keeps : KeepsPrograms K snapshot)
    (programData : P.Address × P.RawAccount) (newAuthorityArgs : List Text) :
    ∃ items, scanProgramsOf K client newAuthorityArgs programData = .ok items ∧
      Listing.Reports
        (fun address => ∃ account, ProgramAt K snapshot address programData.1 account)
        (fun address item => ∃ account, ProgramAt K snapshot address programData.1 account ∧
          item = programItem K newAuthorityArgs programData.1 (address, account)) items := by
  obtain ⟨found, answered, -⟩ := serves.programAccounts P.upgradeableLoader
    [.dataSize programSize, .memcmp 0 programTag,
      .memcmp programDataAddressOffset (P.addressWire.encode programData.1)] none
  obtain ⟨distinct, members⟩ := serves.mem_kept answered fun _ => true
  rw [List.filter_true] at distinct members
  have kept (address : P.Address) (account : P.RawAccount) :
      (address, account) ∈ found ↔ ProgramAt K snapshot address programData.1 account := by
    rw [members]
    constructor
    · intro held
      obtain ⟨stored, present, asked, -, rfl⟩ := held
      obtain ⟨listed, -⟩ := (entryAt_eq_some_iff serves.distinct).mp present
      simp only [asksFor, List.all_cons, List.all_nil, Bool.and_true, Bool.and_eq_true,
        decide_eq_true_eq] at asked
      obtain ⟨owned, sized, tagged, placed⟩ := asked
      have size : account.data.length = programSize := of_decide_eq_true sized
      exact ⟨present, owned, size, (keeps.program _ listed owned size _).mpr ⟨tagged, placed⟩⟩
    · intro here
      obtain ⟨listed, -⟩ := (entryAt_eq_some_iff serves.distinct).mp here.stored
      obtain ⟨tagged, placed⟩ := (keeps.program _ listed here.owned here.sized _).mp here.points
      have size : RpcFilter.allows account.data (.dataSize programSize) = true :=
        decide_eq_true here.sized
      refine ⟨account, here.stored, ?_, rfl, rfl⟩
      simp only [asksFor, here.owned, List.all_cons, List.all_nil, size, tagged, placed,
        decide_true, Bool.and_self]
  refine ⟨_, bind_of_ok answered, ?_⟩
  refine (Listing.reports_map distinct (programItem K newAuthorityArgs programData.1)).imp
    (fun address => ?_) fun address item _ described => ?_
  · constructor
    · intro due
      obtain ⟨⟨address, account⟩, among, rfl⟩ := due
      exact ⟨account, (kept address account).mp among⟩
    · intro due
      obtain ⟨account, here⟩ := due
      exact ⟨_, (kept address account).mpr here, rfl⟩
  · obtain ⟨⟨address, account⟩, among, rfl, same⟩ := described
    exact ⟨account, (kept address account).mp among, same⟩

/-- A program that the owner can upgrade, with its program data. -/
def Upgrades (K : MigrateToolkit P) (snapshot : P.Snapshot) (owner address programData : P.Address) :
    Prop :=
  (∃ account, ProgramAt K snapshot address programData account) ∧
    ∃ account, ProgramDataAt K snapshot programData owner account

theorem ProgramAt.unique {address first second : P.Address} {account account' : P.RawAccount}
    (here : ProgramAt K snapshot address first account)
    (there : ProgramAt K snapshot address second account') : first = second := by
  obtain ⟨-, rfl⟩ := Prod.mk.inj (Option.some.inj (here.stored.symm.trans there.stored))
  exact LoaderState.program.inj (Except.ok.inj (here.points.symm.trans there.points))

/-- Every program that the owner can upgrade, once. -/
theorem scanProgram_reports (serves : client.Serves snapshot) (keeps : KeepsPrograms K snapshot)
    (owner : P.Address) (newAuthorityArgs : List Text) :
    ∃ items, scanProgram K client owner newAuthorityArgs = .ok items ∧
      Listing.Reports (fun address => ∃ programData, Upgrades K snapshot owner address programData)
        (fun address item => ∃ programData account, Upgrades K snapshot owner address programData ∧
          item = programItem K newAuthorityArgs programData (address, account)) items := by
  obtain ⟨found, answered, -⟩ := serves.programAccounts P.upgradeableLoader
    [.memcmp 0 programDataTag, .memcmp upgradeAuthorityOptionOffset [1],
      .memcmp upgradeAuthorityOffset (P.addressWire.encode owner)]
    (some ⟨0, programDataMetadataSize⟩)
  obtain ⟨distinct, -⟩ := serves.mem_kept answered (holdsProgramData K owner)
  have kept := mem_programData serves keeps answered
  have each := scanProgramsOf_reports serves keeps
  obtain ⟨lists, collected, gathered⟩ :=
    mapM_exists fun programData (_ : programData ∈ found.filter (holdsProgramData K owner)) =>
      (each programData newAuthorityArgs).imp fun _ scanned => scanned.1
  have reported := gathered.imp fun programData items scanned => by
    obtain ⟨items', scanned', reports⟩ := each programData newAuthorityArgs
    obtain rfl := Except.ok.inj (scanned.symm.trans scanned')
    exact reports
  refine ⟨lists.flatten, (bind_of_ok answered).trans (bind_of_ok collected), ?_⟩
  -- A program points to one program data account.
  have apart : (found.filter (holdsProgramData K owner)).Pairwise fun first second =>
      ∀ address, (∃ account, ProgramAt K snapshot address first.1 account) →
        ¬∃ account, ProgramAt K snapshot address second.1 account := by
    refine (List.pairwise_map.mp distinct).imp fun differ address here there => ?_
    obtain ⟨account, points⟩ := here
    obtain ⟨account', points'⟩ := there
    exact differ (points.unique points')
  refine (Listing.reports_flatten reported apart).imp (fun address => ?_)
    fun address item _ described => ?_
  · constructor
    · intro due
      obtain ⟨⟨programData, header⟩, among, points⟩ := due
      exact ⟨programData, points, (kept programData).mp ⟨header, among⟩⟩
    · intro due
      obtain ⟨programData, points, holds⟩ := due
      obtain ⟨header, among⟩ := (kept programData).mpr holds
      exact ⟨(programData, header), among, points⟩
  · obtain ⟨⟨programData, header⟩, among, points, account, -, same⟩ := described
    exact ⟨programData, account, ⟨points, (kept programData).mp ⟨header, among⟩⟩, same⟩

end Program

section Token

variable {client : ScanClient P}

theorem parseU64_toDigits (amount : UInt64) :
    parseU64 (Nat.toDigits 10 amount.toNat) = .ok amount := by
  have digits : (Nat.toDigits 10 amount.toNat).all Char.isDigit = true :=
    List.all_eq_true.mpr fun digit member =>
      Nat.isDigit_of_mem_toDigits (by decide) (by decide) member
  have small : amount.toNat ≤ maxU64 := Nat.le_pred_of_lt amount.toNat_lt
  rw [parseU64_ok_iff, Decimal.parse_digits_ok_iff digits (by simp [Nat.toDigits_ne_nil])]
  exact ⟨(Decimal.valueOf_toDigits _).symm, small⟩

/-- A token account of the owner, under either token program, with its mint. -/
structure OwnsTokens (K : MigrateToolkit P) (snapshot : P.Snapshot) (owner address : P.Address)
    (tokenProgram : P.Address) (account : P.TokenAccount) (mint : P.Mint) : Prop where
  program : tokenProgram ∈ [K.tokenProgram, K.token2022Program]
  stored : TokenAt K snapshot tokenProgram address account
  owned : account.owner = owner
  minted : TokenMintAt K snapshot tokenProgram account mint

/-- What is listed for a token account. -/
def tokenItemOf (K : MigrateToolkit P) (owner : P.Address) (newAuthorityArgs : List Text)
    (tokenProgram address : P.Address) (account : P.TokenAccount) (mint : P.Mint) :
    TokenScanItem :=
  let associated := decide (K.getAssociatedTokenAddress owner account.mint tokenProgram = address)
  { tokenAccount := K.showAddress address
    mint := K.showAddress account.mint
    tokenProgram := K.showAddress tokenProgram
    amount := realNumberStringTrimmed account.amount mint.decimals
    associated
    command := migrateCommand (["token".toList, K.showAddress account.mint] ++
      sourceArgs K owner associated address ++ newAuthorityArgs) }

theorem tokenItem_shown (text : K.TextLaws) (owner : P.Address) (newAuthorityArgs : List Text)
    (tokenProgram address : P.Address) (account : P.TokenAccount) (mint : P.Mint) :
    tokenItem K owner newAuthorityArgs tokenProgram (address,
        ⟨K.showAddress account.mint, Nat.toDigits 10 account.amount.toNat, mint.decimals⟩) =
      .ok (tokenItemOf K owner newAuthorityArgs tokenProgram address account mint) := by
  rw [tokenItem, bind_of_ok (context_ok_iff.mpr (parseU64_toDigits account.amount)),
    bind_of_ok (context_ok_iff.mpr (text.address account.mint))]
  rfl

theorem TokenAt.program {first second address : P.Address} {account account' : P.TokenAccount}
    (here : TokenAt K snapshot first address account)
    (there : TokenAt K snapshot second address account') : first = second := by
  obtain ⟨found, present, rfl, -⟩ := here.stored
  obtain ⟨found', present', rfl, -⟩ := there.stored
  rw [(Prod.mk.inj (Option.some.inj (present.symm.trans present'))).2]

/-- Every token account of the owner under a token program, once. -/
theorem scanTokensOf_reports (text : K.TextLaws) (serves : client.Serves K snapshot)
    {owner tokenProgram : P.Address} (program : tokenProgram ∈ [K.tokenProgram, K.token2022Program])
    {newAuthorityArgs : List Text} {items : List TokenScanItem}
    (scanned : scanTokensOf K client owner newAuthorityArgs tokenProgram = .ok items) :
    Listing.Reports
      (fun address => ∃ account, TokenAt K snapshot tokenProgram address account ∧
        account.owner = owner)
      (fun address item => ∃ account mint,
        OwnsTokens K snapshot owner address tokenProgram account mint ∧
        item = tokenItemOf K owner newAuthorityArgs tokenProgram address account mint) items := by
  obtain ⟨found, answered, made⟩ := bind_ok_iff.mp scanned
  have reports := Listing.reports_of_forall₂ (serves.distinct _ _ _ answered) (mapM_ok_iff.mp made)
  refine reports.imp (fun address => ?_) fun address item _ described => ?_
  · constructor
    · intro due
      obtain ⟨⟨address, shown⟩, among, rfl⟩ := due
      obtain ⟨account, mint, stored, owned, -⟩ := serves.parsed _ _ _ answered _ _ among
      exact ⟨account, stored, owned⟩
    · intro due
      obtain ⟨account, stored, owned⟩ := due
      obtain ⟨shown, among⟩ := serves.complete _ _ _ answered _ _ stored owned
      exact ⟨_, among, rfl⟩
  · obtain ⟨⟨address, shown⟩, among, rfl, listed⟩ := described
    obtain ⟨account, mint, stored, owned, minted, rfl⟩ := serves.parsed _ _ _ answered _ _ among
    rw [tokenItem_shown text] at listed
    exact ⟨account, mint, ⟨program, stored, owned, minted⟩, (Except.ok.inj listed).symm⟩

/-- If the token accounts can be scanned, every one of the owner, once. -/
theorem scanToken_reports (text : K.TextLaws) (programs : K.tokenProgram ≠ K.token2022Program)
    (serves : client.Serves K snapshot) {owner : P.Address} {newAuthorityArgs : List Text}
    {items : List TokenScanItem}
    (scanned : scanToken K client owner newAuthorityArgs = .ok items) :
    Listing.Reports
      (fun address => ∃ tokenProgram ∈ [K.tokenProgram, K.token2022Program], ∃ account,
        TokenAt K snapshot tokenProgram address account ∧ account.owner = owner)
      (fun address item => ∃ tokenProgram account mint,
        OwnsTokens K snapshot owner address tokenProgram account mint ∧
        item = tokenItemOf K owner newAuthorityArgs tokenProgram address account mint) items := by
  obtain ⟨lists, collected, same⟩ := bind_ok_iff.mp scanned
  obtain rfl := pure_ok_iff.mp same
  have each : List.Forall₂ (fun tokenProgram items => Listing.Reports
      (fun address => ∃ account, TokenAt K snapshot tokenProgram address account ∧
        account.owner = owner)
      (fun address item => ∃ account mint,
        OwnsTokens K snapshot owner address tokenProgram account mint ∧
        item = tokenItemOf K owner newAuthorityArgs tokenProgram address account mint) items)
      [K.tokenProgram, K.token2022Program] lists := by
    rcases mapM_ok_iff.mp collected with _ | ⟨token, _ | ⟨token2022, rest⟩⟩
    exact .cons (scanTokensOf_reports text serves (by simp) token)
      (.cons (scanTokensOf_reports text serves (by simp) token2022) (by cases rest; exact .nil))
  have apart : [K.tokenProgram, K.token2022Program].Pairwise fun first second =>
      ∀ address, (∃ account, TokenAt K snapshot first address account ∧ account.owner = owner) →
        ¬∃ account, TokenAt K snapshot second address account ∧ account.owner = owner := by
    refine List.pairwise_pair.mpr fun address here there => ?_
    obtain ⟨account, stored, -⟩ := here
    obtain ⟨account', stored', -⟩ := there
    exact programs (stored.program stored')
  refine (Listing.reports_flatten each apart).imp (fun _ => Iff.rfl)
    fun address item _ described => ?_
  obtain ⟨tokenProgram, -, -, account, mint, owns, same⟩ := described
  exact ⟨tokenProgram, account, mint, owns, same⟩

end Token

end MigrateScan

end ProgrammaticSigner
