import ProgrammaticSigner.Migrate.Scan
import ProgrammaticSigner.Migrate.TokenPlan

set_option autoImplicit false

/- What `migrate scan` lists is what its owner controls: the roles that each query finds, what
they add up to on an account, and the accounts that are listed. -/
namespace ProgrammaticSigner

open Outcome

variable {P : Platform}

/-- The accounts of a chain at one moment. -/
abbrev Platform.Snapshot (P : Platform) := List (P.Address × P.RawAccount)

def RpcFilter.allows (data : List UInt8) : RpcFilter → Bool
  | dataSize size => data.length = size
  | memcmp offset bytes => bytes.isPrefixOf (data.drop offset)

def RawAccount.sliced {Address : Type} (slice : Option DataSlice) (account : RawAccount Address) :
    RawAccount Address :=
  match slice with
  | none => account
  | some slice => { account with data := (account.data.drop slice.offset).take slice.length }

/-- The account at an address, with the address. -/
def entryAt (snapshot : P.Snapshot) (address : P.Address) : Option (P.Address × P.RawAccount) :=
  snapshot.find? fun entry => entry.1 = address

/-- A query asks for an account. -/
def asksFor (program : P.Address) (filters : List RpcFilter) (account : P.RawAccount) : Bool :=
  decide (account.owner = program) && filters.all (RpcFilter.allows account.data)

/-- The RPC node answers from a snapshot, with exactly the accounts that match. -/
structure ChainClient.Serves (client : ChainClient P) (snapshot : P.Snapshot) : Prop where
  distinct : (snapshot.map Prod.fst).Nodup
  account : ∀ address,
    client.optionalAccount address = .ok ((entryAt snapshot address).map Prod.snd)
  programAccounts : ∀ program filters slice, ∃ found,
    client.programAccounts program filters slice = .ok found ∧
    found.Perm ((snapshot.filter fun entry => asksFor program filters entry.2).map
      fun entry => (entry.1, entry.2.sliced slice))

/-- What the Token-2022 Program keeps in an account: a mint, a token account, told by its
length or its account type, a multisig, told by its initialized flag, or no mint at all. -/
inductive Token2022Layout (K : MigrateToolkit P) (data : List UInt8) : Prop where
  | mint (mint : P.Mint) (unpacked : K.unpackMint data = .ok mint)
  | account (kind : data[tokenAccountLen]? = none ∨ data[tokenAccountLen]? = some 2)
  | multisig (initialized : data[2]? = some 1)
  | uninitialized (unset : ∀ mint, K.unpackMint (data.take mintLen) ≠ .ok mint)

/-- Documented layouts of stake accounts and mints. -/
structure MigrateToolkit.LayoutLaws (K : MigrateToolkit P) : Prop where
  programs : K.tokenProgram ≠ K.token2022Program
  stake : ∀ data state info role, K.deserializeStake data = .ok state →
    state.stakeMeta = some info → RpcFilter.allows data (.memcmp (MigrateScan.stakeOffset role)
      (P.addressWire.encode (MigrateStake.currentAuthority info.authorized role))) = true
  mint : ∀ data mint role authority, K.unpackMint data = .ok mint →
    MigrateMint.currentAuthority mint role = some authority →
    RpcFilter.allows data (.memcmp (MigrateScan.mintOffset role)
      (P.addressWire.encode authority)) = true
  /-- A mint's extensions follow its account type. -/
  mintType : ∀ data mint, K.unpackMint data = .ok mint →
    data.length = mintLen ∨ data[tokenAccountLen]? = some MigrateScan.mintAccountType
  /-- The base of a mint is a mint without extensions. -/
  mintBase : ∀ data mint, K.unpackMint data = .ok mint →
    ∃ base, K.unpackMint (data.take mintLen) = .ok base ∧
      ∀ role, MigrateMint.currentAuthority base role = MigrateMint.currentAuthority mint role
  /-- A mint starts with a little-endian option tag. -/
  mintTag : ∀ data mint, K.unpackMint data = .ok mint → data[2]? = some 0

/-- The programs keep their accounts at those layouts. -/
structure KeepsLayouts (K : MigrateToolkit P) (snapshot : P.Snapshot) : Prop where
  stake : ∀ entry ∈ snapshot, entry.2.owner = K.stakeProgram → ∀ state info,
    K.deserializeStake entry.2.data = .ok state → state.stakeMeta = some info →
    entry.2.data.length = stakeStateSize
  token : ∀ entry ∈ snapshot, entry.2.owner = K.tokenProgram → ∀ mint,
    K.unpackMint entry.2.data = .ok mint → entry.2.data.length = mintLen
  token2022 : ∀ entry ∈ snapshot, entry.2.owner = K.token2022Program →
    Token2022Layout K entry.2.data

section Rounds

variable {client : ChainClient P} {snapshot : P.Snapshot}

theorem entryAt_eq_some_iff (distinct : (snapshot.map Prod.fst).Nodup) {address : P.Address}
    {entry : P.Address × P.RawAccount} :
    entryAt snapshot address = some entry ↔ entry ∈ snapshot ∧ entry.1 = address :=
  Listing.find?_eq_some_iff distinct

/-- Of the matches that are kept, the one at an address comes from the account there. -/
theorem ChainClient.Serves.kept (serves : client.Serves snapshot) {program : P.Address}
    {filters : List RpcFilter} {slice : Option DataSlice} {found : P.Snapshot}
    (answered : client.programAccounts program filters slice = .ok found)
    (keep : P.Address × P.RawAccount → Bool) :
    ((found.filter keep).map Prod.fst).Nodup ∧
    ∀ address entry, ((found.filter keep).find? fun entry => entry.1 = address) = some entry ↔
      ∃ stored, entryAt snapshot address = some stored ∧ asksFor program filters stored.2 = true ∧
        (stored.1, stored.2.sliced slice) = entry ∧ keep entry = true := by
  obtain ⟨found', answered', same⟩ := serves.programAccounts program filters slice
  obtain rfl := Except.ok.inj (answered.symm.trans answered')
  have keys : (found.map Prod.fst).Nodup := by
    rw [(same.map Prod.fst).nodup_iff, List.map_map]
    exact serves.distinct.sublist (List.filter_sublist.map Prod.fst)
  have distinct : ((found.filter keep).map Prod.fst).Nodup :=
    keys.sublist (List.filter_sublist.map Prod.fst)
  refine ⟨distinct, fun address entry => ?_⟩
  simp only [Listing.find?_eq_some_iff distinct, List.mem_filter, same.mem_iff, List.mem_map,
    entryAt_eq_some_iff serves.distinct]
  constructor
  · intro held
    obtain ⟨⟨⟨stored, ⟨listed, asked⟩, rfl⟩, kept⟩, rfl⟩ := held
    exact ⟨stored, ⟨listed, rfl⟩, asked, rfl, kept⟩
  · intro held
    obtain ⟨stored, ⟨listed, rfl⟩, asked, rfl, kept⟩ := held
    exact ⟨⟨⟨stored, ⟨listed, asked⟩, rfl⟩, kept⟩, rfl⟩

/-- A round of a scan, which pushes a role at each account that it asks for and keeps. -/
theorem ChainClient.Serves.merged (serves : client.Serves snapshot) {Header Role : Type}
    {program : P.Address} {filters : List RpcFilter} {slice : Option DataSlice}
    {found : P.Snapshot}
    (answered : client.programAccounts program filters slice = .ok found)
    (keep : P.Address × P.RawAccount → Bool) (header : P.Address × P.RawAccount → Header)
    (role : Role) (map : Std.TreeMap P.Address (Header × List Role)) (address : P.Address) :
    (Listing.merge Prod.fst (Listing.push header role) map (found.filter keep))[address]? =
      match entryAt snapshot address with
      | some stored =>
          if asksFor program filters stored.2 && keep (stored.1, stored.2.sliced slice) then
            some (Listing.push (fun _ : Unit => header (stored.1, stored.2.sliced slice)) role
              map[address]? ())
          else map[address]?
      | none => map[address]? := by
  obtain ⟨distinct, looked⟩ := serves.kept answered keep
  rw [Listing.getElem?_merge_distinct distinct]
  cases present : entryAt snapshot address with
  | none =>
      have absent : ((found.filter keep).find? fun entry => entry.1 = address) = none := by
        refine Option.eq_none_iff_forall_ne_some.mpr fun entry here => ?_
        obtain ⟨stored, held, -⟩ := (looked address entry).mp here
        rw [present] at held
        cases held
      rw [absent]
  | some stored =>
      by_cases taken : (asksFor program filters stored.2 &&
          keep (stored.1, stored.2.sliced slice)) = true
      · obtain ⟨asked, kept⟩ := Bool.and_eq_true_iff.mp taken
        rw [(looked address _).mpr ⟨stored, present, asked, rfl, kept⟩]
        simp only [taken, if_true]
        rfl
      · have absent : ((found.filter keep).find? fun entry => entry.1 = address) = none := by
          refine Option.eq_none_iff_forall_ne_some.mpr fun entry here => taken ?_
          obtain ⟨stored', held, asked, rfl, kept⟩ := (looked address entry).mp here
          obtain rfl := Option.some.inj (present.symm.trans held)
          rw [asked, kept]
          rfl
        rw [absent]
        simp only [taken]
        rfl

/-- What a round adds at an address: its item, if it takes the account there. -/
def roundAt {Header Item Round : Type} (snapshot : P.Snapshot) (header : P.RawAccount → Header)
    (item : Round → Item) (takes : Round → P.Address × P.RawAccount → Bool) (round : Round)
    (address : P.Address) (held : Option (Header × List Item)) : Option (Header × List Item) :=
  match entryAt snapshot address with
  | some stored =>
      if takes round stored then
        some (Listing.push (fun _ : Unit => header stored.2) (item round) held ())
      else held
  | none => held

theorem foldl_roundAt {Header Item Round : Type} (header : P.RawAccount → Header)
    (item : Round → Item) (takes : Round → P.Address × P.RawAccount → Bool)
    (rounds : List Round) (address : P.Address) :
    rounds.foldl (fun held round => roundAt snapshot header item takes round address held) none =
      (entryAt snapshot address).bind fun stored =>
        if (rounds.filter fun round => takes round stored) = [] then none
        else some (header stored.2, (rounds.filter fun round => takes round stored).map item) := by
  unfold roundAt
  cases entryAt snapshot address with
  | none => exact List.foldl_fixed rounds
  | some stored => exact Listing.foldl_push (header stored.2) item (takes · stored) rounds

end Rounds

namespace MigrateScan

variable {K : MigrateToolkit P} {client : ChainClient P} {snapshot : P.Snapshot}

/-- The roles of a stake account that an address holds. -/
def heldStake (owner : P.Address) (info : P.StakeMeta) : List StakeAuthorize :=
  [StakeAuthorize.staker, .withdrawer].filter fun role =>
    decide (MigrateStake.currentAuthority info.authorized role = owner)

/-- The roles of a mint that an address holds. -/
def heldMint (owner : P.Address) (mint : P.Mint) : List MintAuthorityType :=
  [MintAuthorityType.mint, .freeze].filter fun role =>
    decide (MigrateMint.currentAuthority mint role = some owner)

/-- An initialized stake account of the snapshot. -/
structure StakeAt (K : MigrateToolkit P) (snapshot : P.Snapshot) (address : P.Address)
    (account : P.RawAccount) (info : P.StakeMeta) : Prop where
  stored : entryAt snapshot address = some (address, account)
  owned : account.owner = K.stakeProgram
  initialized : ∃ state, K.deserializeStake account.data = .ok state ∧ state.stakeMeta = some info

/-- A Token or Token-2022 mint of the snapshot. -/
structure MintAt (K : MigrateToolkit P) (snapshot : P.Snapshot) (address : P.Address)
    (account : P.RawAccount) (mint : P.Mint) : Prop where
  stored : entryAt snapshot address = some (address, account)
  owned : account.owner = K.tokenProgram ∨ account.owner = K.token2022Program
  unpacked : K.unpackMint account.data = .ok mint

/-- A map whose entries come from accounts lists the items of those accounts. -/
theorem lists_held {Header Role Info Item : Type} (map : Std.TreeMap P.Address (Header × List Role))
    (item : P.Address × Header × List Role → Item) {At : P.Address → P.RawAccount → Info → Prop}
    {header : P.RawAccount → Header} {roles : Info → List Role}
    (held : ∀ address value, map[address]? = some value ↔ ∃ account info, At address account info ∧
      roles info ≠ [] ∧ value = (header account, roles info)) :
    Listing.Lists (fun address => ∃ account info, At address account info ∧ roles info ≠ [])
      (fun address listed => ∃ account info, At address account info ∧ roles info ≠ [] ∧
        listed = item (address, header account, roles info)) (map.toList.map item) := by
  refine (Listing.lists_toList map item).imp (fun address => ?_) fun address listed _ described => ?_
  · constructor
    · intro due
      obtain ⟨value, found⟩ := due
      obtain ⟨account, info, here, nonempty, -⟩ := (held address value).mp found
      exact ⟨account, info, here, nonempty⟩
    · intro due
      obtain ⟨account, info, here, nonempty⟩ := due
      exact ⟨_, (held address _).mpr ⟨account, info, here, nonempty, rfl⟩⟩
  · obtain ⟨value, found, rfl⟩ := described
    obtain ⟨account, info, here, nonempty, rfl⟩ := (held address value).mp found
    exact ⟨account, info, here, nonempty, rfl⟩

section Stake

theorem holdsStake_iff {owner : P.Address} {role : StakeAuthorize}
    {entry : P.Address × P.RawAccount} :
    holdsStake K owner role entry = true ↔ entry.2.owner = K.stakeProgram ∧
      ∃ state info, K.deserializeStake entry.2.data = .ok state ∧ state.stakeMeta = some info ∧
        MigrateStake.currentAuthority info.authorized role = owner := by
  have decoded (state : P.StakeState) :
      ChainClient.decodeStakeAccount K entry.1 entry.2 = .ok state ↔
        entry.2.owner = K.stakeProgram ∧ K.deserializeStake entry.2.data = .ok state := by
    simp only [ChainClient.decodeStakeAccount, bind_unit_ok_iff, ensure_ok_iff, context_ok_iff]
  unfold holdsStake
  split
  · rename_i info found
    obtain ⟨state, kept, held⟩ := Option.bind_eq_some_iff.mp found
    have read : ChainClient.decodeStakeAccount K entry.1 entry.2 = .ok state := by
      cases outcome : ChainClient.decodeStakeAccount K entry.1 entry.2 with
      | error reason => rw [outcome] at kept; cases kept
      | ok other => rw [outcome] at kept; exact congrArg Except.ok (Option.some.inj kept)
    obtain ⟨owned, deserialized⟩ := (decoded state).mp read
    rw [decide_eq_true_eq]
    constructor
    · intro same
      exact ⟨owned, state, info, deserialized, held, same⟩
    · intro holds
      obtain ⟨-, state', info', deserialized', held', same⟩ := holds
      obtain rfl := Except.ok.inj (deserialized.symm.trans deserialized')
      obtain rfl := Option.some.inj (held.symm.trans held')
      exact same
  · rename_i missing
    constructor
    · intro holds
      cases holds
    · intro holds
      obtain ⟨owned, state, info, deserialized, held, -⟩ := holds
      rw [(decoded state).mpr ⟨owned, deserialized⟩] at missing
      cases missing.symm.trans held

/-- The roles found on a stake account are those that the owner holds. -/
theorem StakeAt.holds {address : P.Address} {account : P.RawAccount} {info : P.StakeMeta}
    (here : StakeAt K snapshot address account info) (owner : P.Address) :
    ([StakeAuthorize.staker, .withdrawer].filter fun role =>
      holdsStake K owner role (address, account)) = heldStake owner info := by
  refine List.filter_congr fun role _ => ?_
  rw [Bool.eq_iff_iff, holdsStake_iff, decide_eq_true_eq]
  obtain ⟨state, deserialized, initialized⟩ := here.initialized
  constructor
  · intro holds
    obtain ⟨-, state', info', deserialized', initialized', same⟩ := holds
    obtain rfl := Except.ok.inj (deserialized.symm.trans deserialized')
    obtain rfl := Option.some.inj (initialized.symm.trans initialized')
    exact same
  · intro same
    exact ⟨here.owned, state, info, deserialized, initialized, same⟩

/-- The filters let through every account that the decoded state then keeps. -/
theorem stake_asked (layouts : K.LayoutLaws) (keeps : KeepsLayouts K snapshot) {owner : P.Address}
    {role : StakeAuthorize} {entry : P.Address × P.RawAccount} (listed : entry ∈ snapshot)
    (holds : holdsStake K owner role entry = true) :
    asksFor K.stakeProgram
      [.dataSize stakeStateSize, .memcmp (stakeOffset role) (P.addressWire.encode owner)]
      entry.2 = true := by
  obtain ⟨owned, state, info, deserialized, held, rfl⟩ := holdsStake_iff.mp holds
  have placed := layouts.stake _ _ _ role deserialized held
  have sized : RpcFilter.allows entry.2.data (.dataSize stakeStateSize) = true :=
    decide_eq_true (keeps.stake entry listed owned state info deserialized held)
  simp only [asksFor, owned, List.all_cons, List.all_nil, Bool.and_true, placed, sized, decide_true]

/-- A query adds its role to the accounts whose owner holds it. -/
theorem scanStakeRole_round (serves : client.Serves snapshot) (layouts : K.LayoutLaws)
    (keeps : KeepsLayouts K snapshot) {owner : P.Address} {map next : StakeRoles P}
    {role : StakeAuthorize} (stepped : scanStakeRole K client owner map role = .ok next)
    (address : P.Address) :
    next[address]? =
      roundAt snapshot RawAccount.lamports id (holdsStake K owner) role address map[address]? := by
  obtain ⟨found, answered, same⟩ := bind_ok_iff.mp stepped
  obtain rfl := pure_ok_iff.mp same
  rw [serves.merged answered, roundAt]
  cases present : entryAt snapshot address with
  | none => rfl
  | some stored =>
      have listed := ((entryAt_eq_some_iff serves.distinct).mp present).1
      by_cases holds : holdsStake K owner role stored = true
      · simp only [stake_asked layouts keeps listed holds, Bool.true_and]
        rfl
      · have kept : holdsStake K owner role (stored.1, stored.2.sliced none) = false :=
          Bool.eq_false_iff.mpr holds
        simp only [kept, holds, Bool.and_false]
        rfl

/-- After both queries, an account has its lamports and the roles that the owner holds. -/
theorem scanStake_roles (serves : client.Serves snapshot) (layouts : K.LayoutLaws)
    (keeps : KeepsLayouts K snapshot) {owner : P.Address} {accounts : StakeRoles P}
    (scanned : [StakeAuthorize.staker, .withdrawer].foldlM (scanStakeRole K client owner) ∅ =
      .ok accounts) (address : P.Address) :
    accounts[address]? = (entryAt snapshot address).bind fun stored =>
      let held := [StakeAuthorize.staker, .withdrawer].filter fun role =>
        holdsStake K owner role stored
      if held = [] then none else some (stored.2.lamports, held) := by
  have rounds (map : StakeRoles P) (role : StakeAuthorize) (next : StakeRoles P)
      (stepped : scanStakeRole K client owner map role = .ok next) :=
    scanStakeRole_round serves layouts keeps stepped
  rw [Listing.getElem?_foldlM rounds scanned, Std.TreeMap.getElem?_emptyc, foldl_roundAt]
  simp only [List.map_id]

/-- The roles found on an account are those of the stake account there. -/
theorem stakeRoles_iff (distinct : (snapshot.map Prod.fst).Nodup) {owner address : P.Address}
    {value : UInt64 × List StakeAuthorize} :
    ((entryAt snapshot address).bind fun stored =>
        let held := [StakeAuthorize.staker, .withdrawer].filter fun role =>
          holdsStake K owner role stored
        if held = [] then none else some (stored.2.lamports, held)) = some value ↔
      ∃ account info, StakeAt K snapshot address account info ∧ heldStake owner info ≠ [] ∧
        value = (account.lamports, heldStake owner info) := by
  rw [Option.bind_eq_some_iff]
  constructor
  · intro found
    obtain ⟨stored, present, kept⟩ := found
    obtain ⟨-, rfl⟩ := (entryAt_eq_some_iff distinct).mp present
    rw [Option.ite_none_left_eq_some] at kept
    obtain ⟨nonempty, same⟩ := kept
    obtain rfl := Option.some.inj same
    obtain ⟨role, found⟩ := List.exists_mem_of_ne_nil _ nonempty
    obtain ⟨owned, state, info, deserialized, initialized, -⟩ :=
      holdsStake_iff.mp (List.mem_filter.mp found).2
    have here : StakeAt K snapshot stored.1 stored.2 info :=
      ⟨present, owned, state, deserialized, initialized⟩
    have roles := here.holds owner
    rw [roles] at nonempty
    exact ⟨stored.2, info, here, nonempty, congrArg _ roles⟩
  · intro found
    obtain ⟨account, info, here, nonempty, rfl⟩ := found
    refine ⟨(address, account), here.stored, ?_⟩
    rw [here.holds, if_neg nonempty]

/-- Every initialized stake account that the owner has a role of, once, with those roles. -/
theorem scanStake_lists (serves : client.Serves snapshot) (layouts : K.LayoutLaws)
    (keeps : KeepsLayouts K snapshot) (owner : P.Address) (newAuthorityArgs : List Text) :
    ∃ items, scanStake K client owner newAuthorityArgs = .ok items ∧
      Listing.Lists
        (fun address => ∃ account info, StakeAt K snapshot address account info ∧
          heldStake owner info ≠ [])
        (fun address item => ∃ account info, StakeAt K snapshot address account info ∧
          heldStake owner info ≠ [] ∧ item = stakeItem K newAuthorityArgs
            (address, account.lamports, heldStake owner info)) items := by
  have asks (map : StakeRoles P) (role : StakeAuthorize) :
      ∃ next, scanStakeRole K client owner map role = .ok next := by
    obtain ⟨found, answered, -⟩ := serves.programAccounts K.stakeProgram
      [.dataSize stakeStateSize, .memcmp (stakeOffset role) (P.addressWire.encode owner)] none
    rw [scanStakeRole, bind_of_ok answered]
    exact ⟨_, rfl⟩
  obtain ⟨accounts, scanned⟩ := Listing.foldlM_exists asks [StakeAuthorize.staker, .withdrawer] ∅
  refine ⟨_, (bind_of_ok scanned).trans rfl, lists_held accounts _ fun address value => ?_⟩
  rw [scanStake_roles serves layouts keeps scanned]
  exact stakeRoles_iff serves.distinct

end Stake

section Mint

theorem holdsMint_iff {owner : P.Address} {role : MintAuthorityType}
    {entry : P.Address × P.RawAccount} :
    holdsMint K owner role entry = true ↔ ∃ mint, K.unpackMint entry.2.data = .ok mint ∧
      MigrateMint.currentAuthority mint role = some owner := by
  have decoded (found : P.Address × P.Mint) :
      ChainClient.decodeMint K entry.1 entry.2 = .ok found ↔
        ∃ mint, K.unpackMint entry.2.data = .ok mint ∧ (entry.2.owner, mint) = found := by
    simp only [ChainClient.decodeMint, bind_ok_iff, context_ok_iff, pure_ok_iff]
  unfold holdsMint
  split
  · rename_i found read
    obtain ⟨mint, unpacked, rfl⟩ := (decoded found).mp read
    simp only [decide_eq_true_eq, unpacked, Except.ok.injEq, exists_eq_left']
  · rename_i reason refused
    constructor
    · intro holds
      cases holds
    · intro holds
      obtain ⟨mint, unpacked, -⟩ := holds
      cases refused.symm.trans ((decoded _).mpr ⟨mint, unpacked, rfl⟩)

/-- An account is where a layout places mints. -/
def inLayout (account : P.RawAccount) (layout : P.Address × RpcFilter) : Bool :=
  decide (account.owner = layout.1) && layout.2.allows account.data

/-- A query returns an account, and its base is a mint of the owner. -/
def takesMint (K : MigrateToolkit P) (owner : P.Address) (query : MintQuery P)
    (entry : P.Address × P.RawAccount) : Bool :=
  asksFor query.tokenProgram query.filters entry.2 &&
    holdsMint K owner query.role (entry.1, entry.2.sliced (some ⟨0, mintLen⟩))

theorem allows_byte {data : List UInt8} {offset : Nat} {byte : UInt8} :
    RpcFilter.allows data (.memcmp offset [byte]) = true ↔ data[offset]? = some byte := by
  rw [RpcFilter.allows, ← List.head?_drop]
  cases data.drop offset with
  | nil => simp
  | cons first rest =>
      have flipped : byte = first ↔ first = byte := eq_comm
      simp [flipped]

theorem sliced_mint (account : P.RawAccount) :
    (account.sliced (some ⟨0, mintLen⟩)).data = account.data.take mintLen := by
  rw [RawAccount.sliced, List.drop_zero]

/-- A mint is at exactly one of the layouts. -/
theorem mintLayouts_inLayout (layouts : K.LayoutLaws) (keeps : KeepsLayouts K snapshot)
    {address : P.Address} {account : P.RawAccount} {mint : P.Mint}
    (listed : (address, account) ∈ snapshot)
    (owned : account.owner = K.tokenProgram ∨ account.owner = K.token2022Program)
    (unpacked : K.unpackMint account.data = .ok mint) :
    ∃ layout, (mintLayouts K).filter (inLayout account) = [layout] := by
  have sized : RpcFilter.allows account.data (.dataSize mintLen) = true ↔
      account.data.length = mintLen := decide_eq_true_iff
  have typed := @allows_byte account.data tokenAccountLen mintAccountType
  have short (length : account.data.length = mintLen) :
      account.data[tokenAccountLen]? ≠ some mintAccountType := by
    rw [List.getElem?_eq_none (by rw [length]; decide)]
    exact fun same => by cases same
  simp only [mintLayouts, List.filter_cons, List.filter_nil, inLayout]
  rcases owned with token | token2022
  · have length := keeps.token _ listed token mint unpacked
    simp only [token, sized.mpr length, layouts.programs, decide_true, decide_false,
      Bool.and_self, Bool.false_and, if_true, Bool.false_eq_true, if_false]
    exact ⟨_, rfl⟩
  · have other : K.token2022Program ≠ K.tokenProgram := Ne.symm layouts.programs
    rcases layouts.mintType _ _ unpacked with length | kind
    · have untyped := Bool.eq_false_iff.mpr fun allowed => short length (typed.mp allowed)
      simp only [token2022, sized.mpr length, untyped, other, decide_true, decide_false,
        Bool.and_self, Bool.false_and, Bool.and_false, if_true, Bool.false_eq_true, if_false]
      exact ⟨_, rfl⟩
    · have long := Bool.eq_false_iff.mpr fun allowed => short (sized.mp allowed) kind
      simp only [token2022, typed.mpr kind, long, other, decide_true, decide_false,
        Bool.and_self, Bool.and_false, if_true, Bool.false_eq_true, if_false]
      exact ⟨_, rfl⟩

/-- On a mint, a query finds its role just if the owner holds it. -/
theorem takesMint_mint (layouts : K.LayoutLaws) {owner address : P.Address}
    {account : P.RawAccount} {mint : P.Mint} (unpacked : K.unpackMint account.data = .ok mint)
    (layout : P.Address × RpcFilter) (role : MintAuthorityType) :
    takesMint K owner
        ⟨layout.1, role, [layout.2, .memcmp (mintOffset role) (P.addressWire.encode owner)]⟩
        (address, account) =
      (inLayout account layout &&
        decide (MigrateMint.currentAuthority mint role = some owner)) := by
  obtain ⟨base, cut, same⟩ := layouts.mintBase _ _ unpacked
  have holds : holdsMint K owner role (address, account.sliced (some ⟨0, mintLen⟩)) =
      decide (MigrateMint.currentAuthority mint role = some owner) := by
    rw [Bool.eq_iff_iff, holdsMint_iff, sliced_mint, cut, decide_eq_true_eq, ← same role]
    simp only [Except.ok.injEq, exists_eq_left']
  simp only [takesMint, asksFor, inLayout, holds, List.all_cons, List.all_nil, Bool.and_true]
  by_cases held : MigrateMint.currentAuthority mint role = some owner
  · rw [layouts.mint _ _ role owner unpacked held, Bool.and_true]
  · simp only [held, decide_false, Bool.and_false]

theorem takesMint_owned {owner : P.Address} {query : MintQuery P} {entry : P.Address × P.RawAccount}
    (asked : query ∈ mintQueries K owner) (taken : takesMint K owner query entry = true) :
    entry.2.owner = K.tokenProgram ∨ entry.2.owner = K.token2022Program := by
  have owned : entry.2.owner = query.tokenProgram :=
    of_decide_eq_true (Bool.and_eq_true_iff.mp (Bool.and_eq_true_iff.mp taken).1).1
  simp only [mintQueries, mintLayouts, List.mem_flatMap, List.mem_cons, List.not_mem_nil, or_false,
    List.mem_map] at asked
  obtain ⟨layout, placed, role, -, rfl⟩ := asked
  rcases placed with rfl | rfl | rfl
  · exact .inl owned
  · exact .inr owned
  · exact .inr owned

/-- Nothing else is taken for a mint. -/
theorem takesMint_of_not_mint (layouts : K.LayoutLaws) (keeps : KeepsLayouts K snapshot)
    {owner address : P.Address} {account : P.RawAccount} (listed : (address, account) ∈ snapshot)
    (other : ∀ mint, K.unpackMint account.data ≠ .ok mint) {query : MintQuery P}
    (asked : query ∈ mintQueries K owner) : takesMint K owner query (address, account) = false := by
  refine Bool.eq_false_iff.mpr fun taken => ?_
  simp only [takesMint, Bool.and_eq_true, holdsMint_iff, sliced_mint] at taken
  obtain ⟨matched, mint, unpacked, -⟩ := taken
  have whole (length : account.data.length = mintLen) : False := by
    rw [← length, List.take_length] at unpacked
    exact other mint unpacked
  simp only [mintQueries, mintLayouts, List.mem_flatMap, List.mem_cons, List.not_mem_nil, or_false,
    List.mem_map] at asked
  obtain ⟨layout, placed, role, -, rfl⟩ := asked
  simp only [asksFor, List.all_cons, Bool.and_eq_true, decide_eq_true_eq] at matched
  obtain ⟨owned, allowed, -⟩ := matched
  rcases placed with rfl | rfl | rfl
  · exact whole (of_decide_eq_true allowed)
  · exact whole (of_decide_eq_true allowed)
  · have kind := allows_byte.mp allowed
    cases keeps.token2022 _ listed owned with
    | mint mint unpacked => exact other mint unpacked
    | account kept =>
        rcases kept with missing | token
        · cases missing.symm.trans kind
        · cases token.symm.trans kind
    | multisig initialized =>
        have tag := layouts.mintTag _ _ unpacked
        rw [List.getElem?_take_of_lt (by decide), initialized] at tag
        cases tag
    | uninitialized unset => exact unset mint unpacked

/-- The queries of one layout, and the roles that they find on an account. -/
theorem roles_of_queries {Query Role : Type} (build : Role → Query) (role : Query → Role)
    (built : ∀ wanted, role (build wanted) = wanted) (takes : Query → Bool) (roles : List Role) :
    ((roles.map build).filter takes).map role = roles.filter fun wanted => takes (build wanted) := by
  rw [List.filter_map, List.map_map]
  have same : role ∘ build = id := funext built
  rw [same, List.map_id]
  rfl

/-- What only the kept items contribute. -/
theorem flatMap_ite {α β : Type} (keep : α → Bool) (contributed : List β) (items : List α) :
    (items.flatMap fun item => if keep item = true then contributed else []) =
      (items.filter keep).flatMap fun _ => contributed := by
  induction items with
  | nil => rfl
  | cons first rest ih =>
      by_cases kept : keep first = true
      · rw [List.flatMap_cons, List.filter_cons_of_pos kept, List.flatMap_cons, ih, if_pos kept]
      · rw [List.flatMap_cons, List.filter_cons_of_neg kept, ih, if_neg kept, List.nil_append]

/-- All the queries together find the roles that the owner holds, each once. -/
theorem mintQueries_roles (layouts : K.LayoutLaws) (keeps : KeepsLayouts K snapshot)
    (owner : P.Address) {address : P.Address} {account : P.RawAccount} {mint : P.Mint}
    (listed : (address, account) ∈ snapshot)
    (owned : account.owner = K.tokenProgram ∨ account.owner = K.token2022Program)
    (unpacked : K.unpackMint account.data = .ok mint) :
    ((mintQueries K owner).filter fun query => takesMint K owner query (address, account)).map
      MintQuery.role = heldMint owner mint := by
  have found (layout : P.Address × RpcFilter) :
      ((([MintAuthorityType.mint, .freeze].map fun role => (⟨layout.1, role,
          [layout.2, .memcmp (mintOffset role) (P.addressWire.encode owner)]⟩ : MintQuery P)).filter
        fun query => takesMint K owner query (address, account)).map MintQuery.role) =
      if inLayout account layout = true then heldMint owner mint else [] := by
    rw [roles_of_queries _ MintQuery.role fun _ => rfl]
    simp only [takesMint_mint layouts unpacked]
    by_cases within : inLayout account layout = true
    · simp only [within, Bool.true_and, if_true]
      rfl
    · simp only [within, Bool.false_and, List.filter_false, if_false, Bool.false_eq_true]
  obtain ⟨layout, only⟩ := mintLayouts_inLayout layouts keeps listed owned unpacked
  rw [mintQueries, List.filter_flatMap, List.map_flatMap]
  simp only [found]
  rw [flatMap_ite, only, List.flatMap_singleton]

/-- A query adds its role to the mints that it takes. -/
theorem scanMintQuery_round (serves : client.Serves snapshot) {owner : P.Address}
    {map next : MintRoles P} {query : MintQuery P}
    (stepped : scanMintQuery K client owner map query = .ok next) (address : P.Address) :
    next[address]? = roundAt snapshot RawAccount.owner MintQuery.role (takesMint K owner) query
      address map[address]? := by
  obtain ⟨found, answered, same⟩ := bind_ok_iff.mp stepped
  obtain rfl := pure_ok_iff.mp same
  rw [serves.merged answered, roundAt]
  cases present : entryAt snapshot address with
  | none => rfl
  | some stored =>
      by_cases taken : takesMint K owner query stored = true
      · have asked := (Bool.and_eq_true_iff.mp taken).1
        have owned : stored.2.owner = query.tokenProgram :=
          of_decide_eq_true (Bool.and_eq_true_iff.mp asked).1
        have both := taken
        rw [takesMint] at both
        simp only [both, taken, if_true, owned]
      · have both := taken
        rw [takesMint] at both
        simp only [both, taken, Bool.false_eq_true, if_false]

/-- After every query, a mint has its token program and the roles that the owner holds. -/
theorem scanMint_roles (serves : client.Serves snapshot) {owner : P.Address} {mints : MintRoles P}
    (scanned : (mintQueries K owner).foldlM (scanMintQuery K client owner) ∅ = .ok mints)
    (address : P.Address) :
    mints[address]? = (entryAt snapshot address).bind fun stored =>
      let taken := (mintQueries K owner).filter fun query => takesMint K owner query stored
      if taken = [] then none else some (stored.2.owner, taken.map MintQuery.role) := by
  have rounds (map : MintRoles P) (query : MintQuery P) (next : MintRoles P)
      (stepped : scanMintQuery K client owner map query = .ok next) :=
    scanMintQuery_round serves stepped
  rw [Listing.getElem?_foldlM rounds scanned, Std.TreeMap.getElem?_emptyc, foldl_roundAt]

/-- The roles found on an account are those of the mint there. -/
theorem mintRoles_iff (layouts : K.LayoutLaws) (keeps : KeepsLayouts K snapshot)
    (distinct : (snapshot.map Prod.fst).Nodup) {owner address : P.Address}
    {value : P.Address × List MintAuthorityType} :
    ((entryAt snapshot address).bind fun stored =>
        let taken := (mintQueries K owner).filter fun query => takesMint K owner query stored
        if taken = [] then none else some (stored.2.owner, taken.map MintQuery.role)) =
        some value ↔
      ∃ account mint, MintAt K snapshot address account mint ∧ heldMint owner mint ≠ [] ∧
        value = (account.owner, heldMint owner mint) := by
  rw [Option.bind_eq_some_iff]
  constructor
  · intro found
    obtain ⟨stored, present, kept⟩ := found
    obtain ⟨listed, rfl⟩ := (entryAt_eq_some_iff distinct).mp present
    rw [Option.ite_none_left_eq_some] at kept
    obtain ⟨nonempty, same⟩ := kept
    obtain rfl := Option.some.inj same
    obtain ⟨query, found⟩ := List.exists_mem_of_ne_nil _ nonempty
    obtain ⟨asked, taken⟩ := List.mem_filter.mp found
    have owned : stored.2.owner = K.tokenProgram ∨ stored.2.owner = K.token2022Program :=
      takesMint_owned asked taken
    by_cases unpacks : ∃ mint, K.unpackMint stored.2.data = .ok mint
    · obtain ⟨mint, unpacked⟩ := unpacks
      have roles := mintQueries_roles layouts keeps owner listed owned unpacked
      refine ⟨stored.2, mint, ⟨present, owned, unpacked⟩, ?_, congrArg _ roles⟩
      rw [← roles]
      exact fun empty => nonempty (List.map_eq_nil_iff.mp empty)
    · have other := takesMint_of_not_mint layouts keeps listed (not_exists.mp unpacks) asked
      cases taken.symm.trans other
  · intro found
    obtain ⟨account, mint, here, nonempty, rfl⟩ := found
    obtain ⟨listed, -⟩ := (entryAt_eq_some_iff distinct).mp here.stored
    have roles := mintQueries_roles layouts keeps owner listed here.owned here.unpacked
    refine ⟨(address, account), here.stored, ?_⟩
    rw [if_neg, roles]
    intro empty
    rw [← roles, empty] at nonempty
    exact nonempty rfl

/-- Every mint that the owner has a role of, once, with those roles. -/
theorem scanMint_lists (serves : client.Serves snapshot) (layouts : K.LayoutLaws)
    (keeps : KeepsLayouts K snapshot) (owner : P.Address) (newAuthorityArgs : List Text) :
    ∃ items, scanMint K client owner newAuthorityArgs = .ok items ∧
      Listing.Lists
        (fun address => ∃ account mint, MintAt K snapshot address account mint ∧
          heldMint owner mint ≠ [])
        (fun address item => ∃ account mint, MintAt K snapshot address account mint ∧
          heldMint owner mint ≠ [] ∧ item = mintItem K newAuthorityArgs
            (address, account.owner, heldMint owner mint)) items := by
  have asks (map : MintRoles P) (query : MintQuery P) :
      ∃ next, scanMintQuery K client owner map query = .ok next := by
    obtain ⟨found, answered, -⟩ := serves.programAccounts query.tokenProgram query.filters
      (some ⟨0, mintLen⟩)
    rw [scanMintQuery, bind_of_ok answered]
    exact ⟨_, rfl⟩
  obtain ⟨mints, scanned⟩ := Listing.foldlM_exists asks (mintQueries K owner) ∅
  refine ⟨_, (bind_of_ok scanned).trans rfl, lists_held mints _ fun address value => ?_⟩
  rw [scanMint_roles serves scanned]
  exact mintRoles_iff layouts keeps serves.distinct

end Mint

end MigrateScan

end ProgrammaticSigner
