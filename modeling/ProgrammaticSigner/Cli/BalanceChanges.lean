import ProgrammaticSigner.Cli.Reference
import ProgrammaticSigner.Cli.SimulationOutput

set_option autoImplicit false

/- The report of a simulation against the balances it was made from: which changes it
lists, and when it can be printed. -/
namespace ProgrammaticSigner

open Outcome Listing

variable {P : Platform}

def lamportsAt (balances : Option (List UInt64)) (index : Nat) : Nat :=
  ((balances.getD []).getD index 0).toNat

/-- The fee as it is added to the fee payer's change. The relay transaction pays its own. -/
def addedFee (result : SimulationResult) (relay : Bool) (index : Nat) : Nat :=
  if index = 0 ∧ relay = false then (result.fee.getD 0).toNat else 0

def lamportsChange (result : SimulationResult) (relay : Bool) (index : Nat) : Int :=
  lamportsAt result.postBalances index - lamportsAt result.preBalances index +
    addedFee result relay index

/-- What a list of token balances last says of an account. -/
def latest (balances : Option (List TokenBalance)) (index : UInt8) : Option TokenBalance :=
  ((balances.getD []).filter fun balance => balance.accountIndex = index).getLast?

/-- A missing balance counts as zero. -/
def tokensAt (balances : Option (List TokenBalance)) (index : UInt8) : Nat :=
  ((latest balances index).bind fun balance =>
    (parseU64 balance.uiTokenAmount.amount).toOption).elim 0 UInt64.toNat

def tokensChange (result : SimulationResult) (index : UInt8) : Int :=
  tokensAt result.postTokenBalances index - tokensAt result.preTokenBalances index

/-- The report of one account's change in lamports. -/
def reportedLamports (K : Toolkit P) (result : SimulationResult) (relay : Bool)
    (labels : SimulationOutput.Labels) (index : Nat) (account : P.Address) : SolBalanceChange :=
  ⟨K.display account, lamportsChange result relay index, labels[K.display account]?⟩

/-- The report of one token account's change, as a balance describes the account. -/
def reportedTokens (K : Toolkit P) (result : SimulationResult) (labels : SimulationOutput.Labels)
    (index : UInt8) (account : P.Address) (balance : TokenBalance) : TokenBalanceChange :=
  ⟨K.display account, balance.mint, balance.owner, balance.programId, tokensChange result index,
    balance.uiTokenAmount.decimals, balance.owner.bind fun owner => labels[owner]?⟩

/-- The changes in lamports and tokens, each account once, in the order of the message. -/
structure ExactOutput (K : Toolkit P) (message : P.Message) (result : SimulationResult)
    (authorities : List P.Address) (relay : Bool) (output : SimulateOutput) : Prop where
  sol : Lists (fun index => index < message.accountKeys.length ∧
      lamportsChange result relay index ≠ 0)
    (fun index change => ∃ account, message.accountKeys[index]? = some account ∧
      change = reportedLamports K result relay (SimulationOutput.labels K authorities) index
        account) output.solBalanceChanges
  token : Lists (fun index => tokensChange result index ≠ 0)
    (fun index change => ∃ account balance, message.accountKeys[index.toNat]? = some account ∧
      (latest result.postTokenBalances index).or (latest result.preTokenBalances index) =
        some balance ∧
      change = reportedTokens K result (SimulationOutput.labels K authorities) index account
        balance) output.tokenBalanceChanges

/-- A node's answer that is reported instead of rejected. -/
structure Reported (message : P.Message) (result : SimulationResult) : Prop where
  succeeded : result.err = none
  balances : ∀ side ∈ [result.preBalances, result.postBalances],
    ∃ balances, side = some balances ∧ balances.length = message.accountKeys.length
  tokenBalances : ∀ side ∈ [result.preTokenBalances, result.postTokenBalances],
    side.isSome = true ∧ ∀ index balance, latest side index = some balance →
      ∃ amount, parseU64 balance.uiTokenAmount.amount = .ok amount
  accounts : ∀ index, tokensChange result index ≠ 0 → index.toNat < message.accountKeys.length

/-- What the fee payer gains with the fee counted back in is below 2^64. -/
def FeePayerGainFits (result : SimulationResult) : Prop :=
  lamportsAt result.postBalances 0 + (result.fee.getD 0).toNat <
    lamportsAt result.preBalances 0 + 2 ^ 64

theorem lamportsAt_le (balances : Option (List UInt64)) (index : Nat) :
    lamportsAt balances index ≤ maxU64 := by
  have := ((balances.getD []).getD index 0).toNat_lt
  simp only [lamportsAt, maxU64]
  omega

theorem addedFee_le (result : SimulationResult) (relay : Bool) (index : Nat) :
    addedFee result relay index ≤ maxU64 := by
  have := (result.fee.getD 0).toNat_lt
  simp only [addedFee, maxU64]
  split <;> omega

theorem tokensAt_le (balances : Option (List TokenBalance)) (index : UInt8) :
    tokensAt balances index ≤ maxU64 := by
  unfold tokensAt
  cases (latest balances index).bind fun balance =>
    (parseU64 balance.uiTokenAmount.amount).toOption with
  | none => simp
  | some amount =>
      have := amount.toNat_lt
      simp only [Option.elim_some, maxU64]
      omega

namespace SimulationOutput

/-- The last of several entries is the one that stays. -/
theorem foldl_setPre (balances : List TokenBalance) (found : Option Sides) :
    balances.foldl (fun found balance => some (setPre found balance)) found =
      if balances = [] then found
      else some (balances.getLast?, (found.getD (none, none)).2) := by
  induction balances generalizing found with
  | nil => rfl
  | cons balance rest ih =>
      rw [List.foldl_cons, ih]
      cases rest with
      | nil => rfl
      | cons second rest => simp [setPre, List.getLast?_cons_cons]

theorem foldl_setPost (balances : List TokenBalance) (found : Option Sides) :
    balances.foldl (fun found balance => some (setPost found balance)) found =
      if balances = [] then found
      else some ((found.getD (none, none)).1, balances.getLast?) := by
  induction balances generalizing found with
  | nil => rfl
  | cons balance rest ih =>
      rw [List.foldl_cons, ih]
      cases rest with
      | nil => rfl
      | cons second rest => simp [setPost, List.getLast?_cons_cons]

/-- An account has an entry when either side has one, and it holds the last of each. -/
theorem tokenBalances_getElem? (pre post : List TokenBalance) (index : UInt8) :
    (tokenBalances pre post)[index]? =
      if latest (some pre) index = none ∧ latest (some post) index = none then none
      else some (latest (some pre) index, latest (some post) index) := by
  rw [tokenBalances, getElem?_merge, getElem?_merge, foldl_setPost, foldl_setPre,
    Std.TreeMap.getElem?_emptyc]
  simp only [latest, Option.getD_some, List.getLast?_eq_none_iff]
  by_cases noPre : (pre.filter fun balance => balance.accountIndex = index) = []
  · by_cases noPost : (post.filter fun balance => balance.accountIndex = index) = []
    · simp only [noPre, noPost, if_true, and_self]
    · simp [noPre, noPost]
  · by_cases noPost : (post.filter fun balance => balance.accountIndex = index) = []
    · simp [noPre, noPost]
    · simp [noPre, noPost]

theorem tokenAmount_ok_iff {side : Option (List TokenBalance)} {index : UInt8} {amount : Int} :
    tokenAmount (latest side index) = .ok amount ↔
      (∀ balance, latest side index = some balance →
        ∃ amount, parseU64 balance.uiTokenAmount.amount = .ok amount) ∧
      amount = tokensAt side index := by
  unfold tokensAt
  cases found : latest side index with
  | none => simp [tokenAmount, eq_comm]
  | some balance =>
      simp only [tokenAmount, bind_ok_iff, mapError_ok_iff, context_ok_iff, pure_ok_iff,
        Option.some.injEq, forall_eq', Option.bind_some]
      cases parseU64 balance.uiTokenAmount.amount with
      | error reason => simp
      | ok amount => simp [Except.toOption, eq_comm]

theorem tokenAmount_raises (balance : Option TokenBalance) :
    Raises (· ≠ Stop.panicked) (tokenAmount balance) := by
  cases balance with
  | none => exact raises_ok
  | some balance =>
      exact raises_bind (raises_mapError (fun _ same => nomatch same)) fun _ _ => raises_ok

variable {K : Toolkit P} {message : P.Message} {result : SimulationResult} {names : Labels}

/-- No saturation takes place among amounts of 64 bits. -/
theorem saturatingSub_amounts {left right : Nat} (small : left ≤ maxU64) (small' : right ≤ maxU64) :
    saturatingSub left right = left - right := by
  simp only [maxU64] at small small'
  exact saturate_eq (by omega) (by omega)

section TokenBalanceChange

/-- The node reported a balance of the account on at least one side. -/
def Present (result : SimulationResult) (index : UInt8) : Prop :=
  ¬(latest result.preTokenBalances index = none ∧ latest result.postTokenBalances index = none)

/-- Infallible: one side is present for every entry. -/
theorem Present.some {index : UInt8} (present : Present result index) :
    ∃ balance, (latest result.postTokenBalances index).or (latest result.preTokenBalances index) =
      some balance := by
  cases post : latest result.postTokenBalances index with
  | some balance => exact ⟨balance, rfl⟩
  | none => exact Option.ne_none_iff_exists'.mp fun pre => present ⟨pre, post⟩

theorem present_of_latest {side : Option (List TokenBalance)} {index : UInt8}
    {balance : TokenBalance} (listed : side ∈ [result.preTokenBalances, result.postTokenBalances])
    (last : latest side index = some balance) : Present result index := by
  intro absent
  simp only [List.mem_cons, List.not_mem_nil, or_false] at listed
  rcases listed with same | same
  · rw [same, absent.1] at last
    cases last
  · rw [same, absent.2] at last
    cases last

theorem present_of_changed {index : UInt8} (changed : tokensChange result index ≠ 0) :
    Present result index := by
  intro absent
  exact changed (by simp [tokensChange, tokensAt, absent.1, absent.2])

variable {index : UInt8} {sides : Sides}
  (latestSides : sides = (latest result.preTokenBalances index, latest result.postTokenBalances index))
include latestSides

/-- Where one side is present, the entry never panics. -/
theorem tokenBalanceChange_raises (present : Present result index) :
    Raises (· ≠ Stop.panicked) (tokenBalanceChange K message names (index, sides)) := by
  unfold tokenBalanceChange
  refine raises_bind (tokenAmount_raises _) fun post _ => ?_
  refine raises_bind (tokenAmount_raises _) fun pre _ => ?_
  show Raises _ (if saturatingSub post pre = 0 then _ else _)
  split
  · exact raises_ok
  · obtain ⟨balance, found⟩ := present.some
    have here : sides.2.or sides.1 = some balance := by rw [latestSides, found]
    refine raises_bind (raises_okOr_some here) fun _ _ => ?_
    exact raises_bind (raises_okOr fun same => nomatch same) fun _ _ => raises_ok

/-- An entry yields its account's change, or nothing when there is none. -/
theorem tokenBalanceChange_ok_iff {found : Option TokenBalanceChange} :
    tokenBalanceChange K message names (index, sides) = .ok found ↔
      (∀ side ∈ [result.preTokenBalances, result.postTokenBalances], ∀ balance,
        latest side index = some balance →
          ∃ amount, parseU64 balance.uiTokenAmount.amount = .ok amount) ∧
      if tokensChange result index = 0 then found = none
      else ∃ account balance, message.accountKeys[index.toNat]? = some account ∧
        (latest result.postTokenBalances index).or (latest result.preTokenBalances index) =
          some balance ∧
        found = some (reportedTokens K result names index account balance) := by
  have change : saturatingSub (tokensAt result.postTokenBalances index)
      (tokensAt result.preTokenBalances index) = tokensChange result index :=
    saturatingSub_amounts (tokensAt_le _ _) (tokensAt_le _ _)
  simp only [tokenBalanceChange, bind_ok_iff, latestSides, tokenAmount_ok_iff, List.mem_cons,
    List.not_mem_nil, or_false, forall_eq_or_imp, forall_eq]
  by_cases none : tokensChange result index = 0
  · simp only [if_pos none]
    constructor
    · intro walked
      obtain ⟨post, ⟨goodPost, samePost⟩, pre, ⟨goodPre, samePre⟩, rest⟩ := walked
      rw [samePost, samePre, change, if_pos none, pure_ok_iff] at rest
      exact ⟨⟨goodPre, goodPost⟩, rest.symm⟩
    · intro listed
      obtain ⟨⟨goodPre, goodPost⟩, same⟩ := listed
      refine ⟨_, ⟨goodPost, rfl⟩, _, ⟨goodPre, rfl⟩, ?_⟩
      rw [change, if_pos none, pure_ok_iff, same]
  · simp only [if_neg none]
    constructor
    · intro walked
      obtain ⟨post, ⟨goodPost, samePost⟩, pre, ⟨goodPre, samePre⟩, rest⟩ := walked
      rw [samePost, samePre, change, if_neg none] at rest
      simp only [unwrap, bind_ok_iff, okOr_ok_iff, pure_ok_iff] at rest
      obtain ⟨balance, here, account, key, same⟩ := rest
      exact ⟨⟨goodPre, goodPost⟩, account, balance, key, here, same.symm⟩
    · intro listed
      obtain ⟨⟨goodPre, goodPost⟩, account, balance, key, here, same⟩ := listed
      refine ⟨_, ⟨goodPost, rfl⟩, _, ⟨goodPre, rfl⟩, ?_⟩
      rw [change, if_neg none]
      simp only [unwrap, bind_ok_iff, okOr_ok_iff, pure_ok_iff]
      exact ⟨balance, here, account, key, same.symm⟩

end TokenBalanceChange

section SolBalanceChanges

variable {relay : Bool}

/-- The entry of an account, from what the node reported under its index. -/
theorem solBalanceChange_eq {entry : (P.Address × UInt64 × UInt64) × Nat}
    (before : entry.1.2.1.toNat = lamportsAt result.preBalances entry.2)
    (after : entry.1.2.2.toNat = lamportsAt result.postBalances entry.2) :
    solBalanceChange K (if relay then 0 else result.fee.getD 0) names entry =
      if lamportsChange result relay entry.2 ≠ 0 then
        some (reportedLamports K result relay names entry.2 entry.1.1)
      else none := by
  have fee : (if entry.2 = 0 then
      (((if relay then 0 else result.fee.getD 0 : UInt64).toNat : Nat) : Int) else 0) =
      addedFee result relay entry.2 := by
    unfold addedFee
    cases relay <;> simp
  have added := addedFee_le result relay entry.2
  have pre := lamportsAt_le result.preBalances entry.2
  have post := lamportsAt_le result.postBalances entry.2
  have change : saturatingAdd (saturatingSub entry.1.2.2.toNat entry.1.2.1.toNat)
      (addedFee result relay entry.2) = lamportsChange result relay entry.2 := by
    rw [before, after, saturatingSub_amounts post pre]
    simp only [maxU64] at added pre post
    exact saturate_eq (by omega) (by omega)
  simp only [solBalanceChange, fee, change, reportedLamports]

theorem solBalanceChanges_ok_iff {fee : UInt64} {changes : List SolBalanceChange} :
    solBalanceChanges K message result fee names = .ok changes ↔
      ∃ pre post, result.preBalances = some pre ∧ result.postBalances = some post ∧
        pre.length = message.accountKeys.length ∧ post.length = message.accountKeys.length ∧
        changes = (message.accountKeys.zip (pre.zip post)).zipIdx.filterMap
          (solBalanceChange K fee names) := by
  simp only [solBalanceChanges, bind_ok_iff, okOr_ok_iff, ensure_ok_iff, pure_ok_iff]
  constructor
  · intro listed
    obtain ⟨pre, before, post, after, -, lengths, same⟩ := listed
    exact ⟨pre, post, before, after, lengths.1, lengths.2, same.symm⟩
  · intro listed
    obtain ⟨pre, post, before, after, first, second, same⟩ := listed
    exact ⟨pre, before, post, after, (), ⟨first, second⟩, same.symm⟩

theorem solBalanceChanges_exact {changes : List SolBalanceChange}
    (listed : solBalanceChanges K message result (if relay then 0 else result.fee.getD 0) names =
      .ok changes) :
    Lists (fun index => index < message.accountKeys.length ∧ lamportsChange result relay index ≠ 0)
      (fun index change => ∃ account, message.accountKeys[index]? = some account ∧
        change = reportedLamports K result relay names index account) changes := by
  obtain ⟨pre, post, before, after, first, second, same⟩ := solBalanceChanges_ok_iff.mp listed
  have entries (entry : (P.Address × UInt64 × UInt64) × Nat)
      (member : entry ∈ (message.accountKeys.zip (pre.zip post)).zipIdx) :
      message.accountKeys[entry.2]? = some entry.1.1 ∧
        solBalanceChange K (if relay then 0 else result.fee.getD 0) names entry =
          if lamportsChange result relay entry.2 ≠ 0 then
            some (reportedLamports K result relay names entry.2 entry.1.1)
          else none := by
    have slot := List.mem_zipIdx_iff_getElem?.mp member
    rw [List.getElem?_zip_eq_some, List.getElem?_zip_eq_some] at slot
    refine ⟨slot.1, solBalanceChange_eq ?_ ?_⟩
    · rw [lamportsAt, before, Option.getD_some, List.getD_eq_getElem?_getD, slot.2.1]
      rfl
    · rw [lamportsAt, after, Option.getD_some, List.getD_eq_getElem?_getD, slot.2.2]
      rfl
  have sorted : ((message.accountKeys.zip (pre.zip post)).zipIdx.map Prod.snd).Pairwise
      (· < ·) := by
    rw [List.zipIdx_map_snd]
    exact List.pairwise_lt_range'
  rw [same]
  refine (lists_filterMap sorted _).imp (fun index => ?_) fun index change due described => ?_
  · constructor
    · intro due
      obtain ⟨entry, member, same, some⟩ := due
      obtain ⟨key, change⟩ := entries entry member
      rw [change] at some
      rw [← same]
      refine ⟨(List.getElem?_eq_some_iff.mp key).1, fun none => ?_⟩
      rw [none] at some
      cases some
    · intro due
      obtain ⟨inside, changed⟩ := due
      have slot : (message.accountKeys.zip (pre.zip post))[index]? =
          some (message.accountKeys[index], pre[index], post[index]) := by
        rw [List.getElem?_zip_eq_some, List.getElem?_zip_eq_some]
        exact ⟨List.getElem?_eq_getElem inside, List.getElem?_eq_getElem (by omega),
          List.getElem?_eq_getElem (by omega)⟩
      have member := List.mem_zipIdx_iff_getElem?.mpr
        (show (message.accountKeys.zip (pre.zip post))[(_, index).2]? = some (_, index).1 from slot)
      refine ⟨_, member, rfl, ?_⟩
      rw [(entries _ member).2, if_pos changed]
      rfl
  · obtain ⟨entry, member, same, chosen⟩ := described
    obtain ⟨key, change⟩ := entries entry member
    rw [change, same] at chosen
    rw [same] at key
    split at chosen
    · exact ⟨entry.1.1, key, (Option.some.inj chosen).symm⟩
    · cases chosen

end SolBalanceChanges

section TokenBalanceChanges

theorem tokenBalanceChanges_ok_iff {changes : List TokenBalanceChange} :
    tokenBalanceChanges K message result names = .ok changes ↔
      ∃ pre post, result.preTokenBalances = some pre ∧ result.postTokenBalances = some post ∧
        (tokenBalances pre post).toList.filterMapM (tokenBalanceChange K message names) =
          .ok changes := by
  simp only [tokenBalanceChanges, bind_ok_iff, okOr_ok_iff]
  constructor
  · intro walked
    obtain ⟨pre, before, post, after, walked⟩ := walked
    exact ⟨pre, post, before, after, walked⟩
  · intro walked
    obtain ⟨pre, post, before, after, walked⟩ := walked
    exact ⟨pre, before, post, after, walked⟩

variable {pre post : List TokenBalance} (before : result.preTokenBalances = some pre)
  (after : result.postTokenBalances = some post)
include before after

theorem mem_tokenBalances {entry : UInt8 × Sides} :
    entry ∈ (tokenBalances pre post).toList ↔
      entry.2 = (latest result.preTokenBalances entry.1, latest result.postTokenBalances entry.1) ∧
        Present result entry.1 := by
  have lookup : entry ∈ (tokenBalances pre post).toList ↔
      (tokenBalances pre post)[entry.1]? = some entry.2 :=
    Std.TreeMap.mem_toList_iff_getElem?_eq_some
  rw [lookup, tokenBalances_getElem?, Present, before, after]
  split
  · rename_i absent
    simp [absent]
  · rename_i present
    simp only [Option.some.injEq, present, not_false_eq_true, and_true]
    exact eq_comm

theorem present_mem {index : UInt8} (present : Present result index) :
    (index, (latest result.preTokenBalances index, latest result.postTokenBalances index)) ∈
      (tokenBalances pre post).toList :=
  (mem_tokenBalances before after).mpr ⟨rfl, present⟩

theorem tokenBalanceChanges_raises :
    Raises (· ≠ Stop.panicked)
      ((tokenBalances pre post).toList.filterMapM (tokenBalanceChange K message names)) := by
  refine raises_filterMapM fun entry member => ?_
  have present := (mem_tokenBalances before after).mp member
  exact tokenBalanceChange_raises present.1 present.2

/-- The walk returns when every amount can be read and every changed account is known. -/
theorem tokenBalanceChanges_total :
    (∃ changes, (tokenBalances pre post).toList.filterMapM (tokenBalanceChange K message names) =
        .ok changes) ↔
      (∀ side ∈ [result.preTokenBalances, result.postTokenBalances], ∀ index balance,
        latest side index = some balance →
          ∃ amount, parseU64 balance.uiTokenAmount.amount = .ok amount) ∧
      ∀ index, tokensChange result index ≠ 0 → index.toNat < message.accountKeys.length := by
  simp only [filterMapM_ok_iff]
  constructor
  · intro walked
    obtain ⟨changes, each, -⟩ := walked
    constructor
    · intro side listed index balance last
      obtain ⟨found, checked⟩ :=
        each _ (present_mem before after (present_of_latest listed last))
      exact ((tokenBalanceChange_ok_iff rfl).mp checked).1 side listed balance last
    · intro index changed
      obtain ⟨found, checked⟩ := each _ (present_mem before after (present_of_changed changed))
      have yields := ((tokenBalanceChange_ok_iff rfl).mp checked).2
      rw [if_neg changed] at yields
      obtain ⟨account, balance, key, -⟩ := yields
      exact (List.getElem?_eq_some_iff.mp key).1
  · intro good
    obtain ⟨readable, known⟩ := good
    refine ⟨_, fun entry member => ?_, rfl⟩
    have present := (mem_tokenBalances before after).mp member
    have readable (side) (listed) := readable side listed entry.1
    by_cases none : tokensChange result entry.1 = 0
    · exact ⟨_, (tokenBalanceChange_ok_iff present.1).mpr ⟨readable, by rw [if_pos none]⟩⟩
    · obtain ⟨balance, here⟩ := present.2.some
      obtain ⟨account, key⟩ : ∃ account, message.accountKeys[entry.1.toNat]? = some account :=
        ⟨_, List.getElem?_eq_getElem (known entry.1 none)⟩
      refine ⟨some (reportedTokens K result names entry.1 account balance),
        (tokenBalanceChange_ok_iff present.1).mpr ⟨readable, ?_⟩⟩
      rw [if_neg none]
      exact ⟨account, balance, key, here, rfl⟩

theorem tokenBalanceChanges_exact {changes : List TokenBalanceChange}
    (walked : (tokenBalances pre post).toList.filterMapM (tokenBalanceChange K message names) =
      .ok changes) :
    Lists (fun index => tokensChange result index ≠ 0)
      (fun index change => ∃ account balance, message.accountKeys[index.toNat]? = some account ∧
        (latest result.postTokenBalances index).or (latest result.preTokenBalances index) =
          some balance ∧
        change = reportedTokens K result names index account balance) changes := by
  obtain ⟨each, same⟩ := filterMapM_ok_iff.mp walked
  have sorted : ((tokenBalances pre post).toList.map Prod.fst).Pairwise (· < ·) := by
    rw [Std.TreeMap.map_fst_toList_eq_keys]
    exact Std.TreeMap.ordered_keys.imp fun less => Std.compare_eq_lt.mp less
  have yields (entry : UInt8 × Sides) (member : entry ∈ (tokenBalances pre post).toList) :
      ∃ found, tokenBalanceChange K message names entry = .ok found ∧
        if tokensChange result entry.1 = 0 then found = none
        else ∃ account balance, message.accountKeys[entry.1.toNat]? = some account ∧
          (latest result.postTokenBalances entry.1).or (latest result.preTokenBalances entry.1) =
            some balance ∧
          found = some (reportedTokens K result names entry.1 account balance) := by
    obtain ⟨found, checked⟩ := each entry member
    have present := (mem_tokenBalances before after).mp member
    exact ⟨found, checked, ((tokenBalanceChange_ok_iff present.1).mp checked).2⟩
  rw [same]
  refine (lists_filterMap sorted _).imp (fun index => ?_) fun index change due described => ?_
  · constructor
    · intro due none
      obtain ⟨entry, member, same, some⟩ := due
      obtain ⟨found, checked, yield⟩ := yields entry member
      rw [same, if_pos none] at yield
      rw [checked, yield] at some
      cases some
    · intro changed
      have member := present_mem before after (present_of_changed changed)
      obtain ⟨found, checked, yield⟩ := yields _ member
      rw [if_neg changed] at yield
      obtain ⟨account, balance, -, -, found⟩ := yield
      refine ⟨_, member, rfl, ?_⟩
      rw [checked, found]
      rfl
  · obtain ⟨entry, member, same, chosen⟩ := described
    obtain ⟨found, checked, yield⟩ := yields entry member
    rw [checked] at chosen
    rw [same] at yield
    split at yield
    · rw [yield] at chosen
      cases chosen
    · obtain ⟨account, balance, key, here, found⟩ := yield
      rw [found] at chosen
      exact ⟨account, balance, key, here, (Option.some.inj chosen).symm⟩

end TokenBalanceChanges

variable {authorities : List P.Address} {relay : Bool} {output : SimulateOutput}

theorem build_raises :
    Raises (· ≠ Stop.panicked) (build K message result authorities relay) := by
  unfold build
  refine raises_bind (raises_ensure fun same => nomatch same) fun _ _ => ?_
  refine raises_bind ?_ fun sol _ => ?_
  · refine raises_bind (raises_okOr fun same => nomatch same) fun pre _ => ?_
    refine raises_bind (raises_okOr fun same => nomatch same) fun post _ => ?_
    exact raises_bind (raises_ensure fun same => nomatch same) fun _ _ => raises_ok
  · refine raises_bind ?_ fun token _ => raises_ok
    constructor
    intro reason failed
    unfold tokenBalanceChanges at failed
    cases before : result.preTokenBalances with
    | none => rw [before] at failed; cases failed; exact nofun
    | some pre =>
        cases after : result.postTokenBalances with
        | none => rw [before, after] at failed; cases failed; exact nofun
        | some post =>
            rw [before, after] at failed
            exact (tokenBalanceChanges_raises before after).of_error reason failed

theorem build_ok_iff : build K message result authorities relay = .ok output ↔
    result.err = none ∧ ∃ sol token,
      solBalanceChanges K message result (if relay then 0 else result.fee.getD 0)
        (labels K authorities) = .ok sol ∧
      tokenBalanceChanges K message result (labels K authorities) = .ok token ∧
      output = ⟨result.unitsConsumed, if relay then some (result.fee.getD 0) else none, sol,
        token⟩ := by
  simp only [build, bind_ok_iff, ensure_ok_iff, pure_ok_iff]
  constructor
  · intro built
    obtain ⟨-, fine, sol, listed, token, walked, same⟩ := built
    exact ⟨fine, sol, token, listed, walked, same.symm⟩
  · intro built
    obtain ⟨fine, sol, token, listed, walked, same⟩ := built
    exact ⟨(), fine, sol, listed, token, walked, same.symm⟩

theorem build_exact (built : build K message result authorities relay = .ok output) :
    ExactOutput K message result authorities relay output := by
  obtain ⟨-, sol, token, listed, walked, same⟩ := build_ok_iff.mp built
  obtain ⟨pre, post, before, after, walked⟩ := tokenBalanceChanges_ok_iff.mp walked
  subst same
  exact ⟨solBalanceChanges_exact listed, tokenBalanceChanges_exact before after walked⟩

/-- An output is made of exactly the answers that are not rejected. -/
theorem build_ok_exists_iff :
    (∃ output, build K message result authorities relay = .ok output) ↔
      Reported message result := by
  constructor
  · intro built
    obtain ⟨output, built⟩ := built
    obtain ⟨fine, sol, token, listed, walked, -⟩ := build_ok_iff.mp built
    obtain ⟨pre, post, before, after, preLength, postLength, -⟩ :=
      solBalanceChanges_ok_iff.mp listed
    obtain ⟨preTokens, postTokens, tokensBefore, tokensAfter, walked⟩ :=
      tokenBalanceChanges_ok_iff.mp walked
    obtain ⟨readable, known⟩ :=
      (tokenBalanceChanges_total tokensBefore tokensAfter).mp ⟨token, walked⟩
    refine ⟨fine, fun side listed => ?_, fun side listed => ⟨?_, readable side listed⟩, known⟩
    all_goals
      simp only [List.mem_cons, List.not_mem_nil, or_false] at listed
      rcases listed with rfl | rfl
    · exact ⟨pre, before, preLength⟩
    · exact ⟨post, after, postLength⟩
    · rw [tokensBefore]; rfl
    · rw [tokensAfter]; rfl
  · intro reported
    obtain ⟨pre, before, preLength⟩ := reported.balances _ List.mem_cons_self
    obtain ⟨post, after, postLength⟩ :=
      reported.balances _ (List.mem_cons_of_mem _ List.mem_cons_self)
    obtain ⟨preTokens, tokensBefore⟩ :=
      Option.isSome_iff_exists.mp (reported.tokenBalances _ List.mem_cons_self).1
    obtain ⟨postTokens, tokensAfter⟩ := Option.isSome_iff_exists.mp
      (reported.tokenBalances _ (List.mem_cons_of_mem _ List.mem_cons_self)).1
    obtain ⟨token, walked⟩ := (tokenBalanceChanges_total tokensBefore tokensAfter).mpr
      ⟨fun side listed => (reported.tokenBalances side listed).2, reported.accounts⟩
    exact ⟨_, build_ok_iff.mpr ⟨reported.succeeded, _, token,
      solBalanceChanges_ok_iff.mpr ⟨pre, post, before, after, preLength, postLength, rfl⟩,
      tokenBalanceChanges_ok_iff.mpr ⟨preTokens, postTokens, tokensBefore, tokensAfter, walked⟩,
      rfl⟩⟩

end SimulationOutput

/-- A change is printed exactly when its size is one of 64 bits. -/
theorem unwrap_tryFromU64_ok_iff {value : Nat} {amount : UInt64} :
    unwrap (tryFromU64 value) = .ok amount ↔ value ≤ maxU64 ∧ UInt64.ofNat value = amount := by
  simp only [unwrap, okOr_ok_iff, tryFromU64]
  split
  · rename_i fits
    simp [fits]
  · rename_i large
    simp [large]

theorem SolBalanceChange.display_ok_iff {change : SolBalanceChange} :
    (∃ line, change.display = .ok line) ↔ change.lamports.natAbs ≤ maxU64 := by
  simp only [SolBalanceChange.display, bind_ok_iff, unwrap_tryFromU64_ok_iff, pure_ok_iff]
  constructor
  · intro shown
    obtain ⟨line, lamports, fits, -⟩ := shown
    exact fits.1
  · intro fits
    exact ⟨_, _, ⟨fits, rfl⟩, rfl⟩

theorem TokenBalanceChange.display_ok_iff {change : TokenBalanceChange} :
    (∃ line, change.display = .ok line) ↔ change.amount.natAbs ≤ maxU64 := by
  simp only [TokenBalanceChange.display, formatTokenAmount, bind_ok_iff,
    unwrap_tryFromU64_ok_iff, pure_ok_iff]
  constructor
  · intro shown
    obtain ⟨line, text, ⟨amount, fits, -⟩, -⟩ := shown
    exact fits.1
  · intro fits
    exact ⟨_, _, ⟨_, ⟨fits, rfl⟩, rfl⟩, rfl⟩

/-- Everything is printed when every change can be. -/
theorem SimulateOutput.display_ok_iff {output : SimulateOutput} :
    (∃ text, output.display = .ok text) ↔
      (∀ change ∈ output.solBalanceChanges, change.lamports.natAbs ≤ maxU64) ∧
        ∀ change ∈ output.tokenBalanceChanges, change.amount.natAbs ≤ maxU64 := by
  simp only [← SolBalanceChange.display_ok_iff, ← TokenBalanceChange.display_ok_iff]
  simp only [SimulateOutput.display, bind_ok_iff, pure_ok_iff]
  constructor
  · intro shown
    obtain ⟨text, sol, solLines, token, tokenLines, -⟩ := shown
    exact ⟨fun _ listed => (mapM_ok_of_mem solLines listed).imp fun _ line => line.2,
      fun _ listed => (mapM_ok_of_mem tokenLines listed).imp fun _ line => line.2⟩
  · intro shown
    obtain ⟨sol, solLines, -⟩ := mapM_exists shown.1
    obtain ⟨token, tokenLines, -⟩ := mapM_exists shown.2
    exact ⟨_, sol, solLines, token, tokenLines, rfl⟩

/-- Printing has no other way to fail than to panic. -/
theorem SimulateOutput.display_panics {output : SimulateOutput} {reason : Stop}
    (failed : output.display = .error reason) : reason = .panicked := by
  have amount (value : Nat) : Raises (· = Stop.panicked) (unwrap (tryFromU64 value)) :=
    raises_okOr rfl
  have raises : Raises (· = Stop.panicked) output.display := by
    refine raises_bind (raises_mapM fun change _ => ?_) fun _ _ => ?_
    · exact raises_bind (amount _) fun _ _ => raises_ok
    · refine raises_bind (raises_mapM fun change _ => ?_) fun _ _ => raises_ok
      refine raises_bind ?_ fun _ _ => raises_ok
      exact raises_bind (amount _) fun _ _ => raises_ok
  exact raises.of_error reason failed

theorem SimulateOutput.render_ne_panicked_iff {output : SimulateOutput}
    {toJson : Bool → SimulateOutput → Except Failure String} :
    (∀ format, output.render toJson format ≠ .error .panicked) ↔
      ∃ text, output.display = .ok text := by
  constructor
  · intro fine
    cases shown : output.display with
    | ok text => exact ⟨text, rfl⟩
    | error reason =>
        have panics := SimulateOutput.display_panics shown
        exact absurd (shown.trans (by rw [panics])) (fine .display)
  · intro shown format
    obtain ⟨text, shown⟩ := shown
    cases format with
    | display => rw [render, shown]; exact nofun
    | json =>
        unfold render
        cases context "failed to encode JSON" (toJson true output) <;> exact nofun
    | jsonCompact =>
        unfold render
        cases context "failed to encode JSON" (toJson false output) <;> exact nofun

/-- A change of tokens is the difference of two amounts, which fits. -/
theorem tokensChange_le (result : SimulationResult) (index : UInt8) :
    (tokensChange result index).natAbs ≤ maxU64 := by
  have pre := tokensAt_le result.preTokenBalances index
  have post := tokensAt_le result.postTokenBalances index
  simp only [tokensChange]
  omega

/-- A change of lamports fits, but for a fee payer whose gain with the fee does not. -/
theorem lamportsChange_le_iff (result : SimulationResult) (relay : Bool) (index : Nat) :
    (lamportsChange result relay index).natAbs ≤ maxU64 ↔
      (index = 0 → relay = false → FeePayerGainFits result) := by
  have pre := lamportsAt_le result.preBalances index
  have post := lamportsAt_le result.postBalances index
  by_cases added : index = 0 ∧ relay = false
  · obtain ⟨rfl, direct⟩ := added
    have fee := (result.fee.getD 0).toNat_lt
    simp only [lamportsChange, addedFee, direct, and_self, if_true, forall_const,
      FeePayerGainFits, maxU64] at *
    omega
  · have same : addedFee result relay index = 0 := if_neg added
    simp only [lamportsChange, same]
    constructor
    · intro _ first direct
      exact absurd ⟨first, direct⟩ added
    · intro _
      omega

/-- The report is exact, and neither making nor printing it panics. -/
def ReportsExactly (K : Toolkit P) (message : P.Message) (result : SimulationResult)
    (authorities : List P.Address) (relay : Bool)
    (toJson : Bool → SimulateOutput → Except Failure String) : Prop :=
  SimulationOutput.build K message result authorities relay ≠ .error .panicked ∧
    ∀ output, SimulationOutput.build K message result authorities relay = .ok output →
      ExactOutput K message result authorities relay output ∧
      ∀ format, output.render toJson format ≠ .error .panicked

/-- A simulation is reported exactly, and without a panic, unless it is one of an execution
whose fee payer gains more than 64 bits hold once the fee is counted back in. -/
theorem simulation_output_exact_iff (K : Toolkit P) (message : P.Message)
    (result : SimulationResult) (authorities : List P.Address) (relay : Bool)
    (toJson : Bool → SimulateOutput → Except Failure String) :
    ReportsExactly K message result authorities relay toJson ↔
      (Reported message result → relay = false → FeePayerGainFits result) := by
  have safe : SimulationOutput.build K message result authorities relay ≠ .error .panicked :=
    fun failed => SimulationOutput.build_raises.of_error _ failed rfl
  simp only [ReportsExactly, SimulateOutput.render_ne_panicked_iff,
    SimulateOutput.display_ok_iff]
  constructor
  · intro exactly reported direct
    obtain ⟨output, built⟩ := SimulationOutput.build_ok_exists_iff.mpr reported
    obtain ⟨exact, fits, -⟩ := exactly.2 output built
    by_contra large
    have change := (lamportsChange_le_iff result relay 0).not.mpr fun fit => large (fit rfl direct)
    have inside : 0 < message.accountKeys.length := by
      by_contra empty
      obtain ⟨pre, before, length⟩ := reported.balances _ List.mem_cons_self
      obtain ⟨post, after, length'⟩ :=
        reported.balances _ (List.mem_cons_of_mem _ List.mem_cons_self)
      obtain rfl : pre = [] := List.eq_nil_of_length_eq_zero (by omega)
      obtain rfl : post = [] := List.eq_nil_of_length_eq_zero (by omega)
      have fee := (result.fee.getD 0).toNat_lt
      refine large ?_
      simp only [FeePayerGainFits, lamportsAt, before, after, Option.getD_some, List.getD_nil]
      simpa using fee
    have due : 0 < message.accountKeys.length ∧ lamportsChange result relay 0 ≠ 0 :=
      ⟨inside, fun none => change (by rw [none]; simp)⟩
    obtain ⟨reportedChange, listed, account, -, same⟩ := exact.sol.exists_of_due due
    have small := fits reportedChange listed
    rw [same] at small
    exact change small
  · intro fits
    refine ⟨safe, fun output built => ?_⟩
    have exact := SimulationOutput.build_exact built
    have reported := SimulationOutput.build_ok_exists_iff.mp ⟨output, built⟩
    refine ⟨exact, fun change listed => ?_, fun change listed => ?_⟩
    · obtain ⟨index, -, account, -, same⟩ := exact.sol.of_mem listed
      rw [same]
      exact (lamportsChange_le_iff result relay index).mpr fun _ direct => fits reported direct
    · obtain ⟨index, -, account, balance, -, -, same⟩ := exact.token.of_mem listed
      rw [same]
      exact tokensChange_le result index

namespace Reference

/-- A funded fee payer alone in its message, at both ends of the range of lamports. -/
def extremeMessage : Message Nat Bytes := ⟨⟨1, 0, 0⟩, default, [], [7], []⟩

def extremeResult : SimulationResult :=
  ⟨none, none, none, some 1, some [0], some [UInt64.ofNat maxU64], some [], some []⟩

end Reference

/-- The comment on the conversion forgets the fee, which can carry a change past 64 bits. -/
theorem simulation_output_panics : ¬ReportsExactly Toolkit.reference Reference.extremeMessage
    Reference.extremeResult [] false fun _ _ => .error [] := by
  intro exactly
  have built : SimulationOutput.build Toolkit.reference Reference.extremeMessage
      Reference.extremeResult [] false =
        .ok ⟨none, none, [⟨Toolkit.reference.display (7 : Nat), 2 ^ 64, none⟩], []⟩ := by
    decide +kernel
  exact (exactly.2 _ built).2 .display (by decide +kernel)

end ProgrammaticSigner
