import ProgrammaticSigner.Migrate.TokenReference

set_option autoImplicit false

/- What a token migration's instructions come to under the token programs' rules, from the
accounts that were read: which rules were left unread, and that the tokens move exactly if
those hold as well. -/
namespace ProgrammaticSigner

open Outcome

variable {P : Platform}

theorem exists_append_of_forall₂ {α β : Type} {R : α → β → Prop} {first second : List α}
    {items : List β} (related : List.Forall₂ R (first ++ second) items) :
    ∃ left right, items = left ++ right ∧ List.Forall₂ R first left ∧
      List.Forall₂ R second right :=
  ⟨items.take first.length, items.drop first.length, (List.take_append_drop _ _).symm,
    (List.forall₂_take_append items first second related.flip).flip,
    (List.forall₂_drop_append items first second related.flip).flip⟩

namespace TokenAccount

variable {Address : Type} {account : TokenAccount Address} {amount : UInt64}

/-- A transfer takes from the balance and the allowance only. -/
theorem debited_eq [DecidableEq Address] (account : TokenAccount Address) (mint : Mint Address)
    (authority : Address) (amount : UInt64) :
    ∃ delegate delegatedAmount, account.debited mint authority amount =
      { account with
        amount := account.amount - amount, delegate := delegate
        delegatedAmount := delegatedAmount } := by
  unfold debited
  split
  · exact ⟨_, _, rfl⟩
  · exact ⟨_, _, rfl⟩

/-- A transfer leaves the destination with just that much more. -/
theorem held_credited {fee : UInt64} (le : fee ≤ amount)
    (fits : account.amount.toNat + amount.toNat < 2 ^ 64)
    (withholds : 0 < fee → ∃ withheld ∈ account.transferFeeAmount,
      withheld.toNat + fee.toNat < 2 ^ 64) :
    (account.credited amount fee).held = account.held + amount.toNat := by
  have rest : (amount - fee).toNat = amount.toNat - fee.toNat := UInt64.toNat_sub_of_le _ _ le
  have small := UInt64.le_iff_toNat_le.mp le
  have balance : (account.amount + (amount - fee)).toNat =
      account.amount.toNat + (amount.toNat - fee.toNat) := by
    rw [UInt64.toNat_add, rest, Nat.mod_eq_of_lt (by omega)]
  have fees : ((account.transferFeeAmount.map (· + fee)).getD 0).toNat =
      (account.transferFeeAmount.getD 0).toNat + fee.toNat := by
    by_cases free : fee = 0
    · cases account.transferFeeAmount with
      | none => simp [free]
      | some withheld => simp [free]
    · obtain ⟨withheld, kept, room⟩ := withholds (UInt64.pos_iff_ne_zero.mpr free)
      rw [Option.mem_def.mp kept, Option.map_some, Option.getD_some, Option.getD_some,
        UInt64.toNat_add, Nat.mod_eq_of_lt room]
  show (account.amount + (amount - fee)).toNat +
    ((account.transferFeeAmount.map (· + fee)).getD 0).toNat = _
  rw [balance, fees, held]
  omega

end TokenAccount

namespace TokenPlan

variable (command : TokenCommand P) (plan : TokenPlan P)

/-- The destination before the transfer, as it was read or as it is created. -/
def target : P.TokenAccount :=
  plan.destinationAccount.getD (.fresh plan.token.mint command.mint plan.source.newOwner)

/-- The source after the transfer. -/
def spent : P.TokenAccount :=
  if 0 < plan.amount then
    plan.source.account.debited plan.token.mint plan.source.owner plan.amount
  else plan.source.account

variable (runtime : TokenRuntime P) (ledger : TokenLedger P)

/-- The ledger after each part of a migration. -/
def opened : TokenLedger P :=
  if 0 < plan.amount ∧ plan.destinationAccount = none then
    ledger.setAccount plan.destination (some (plan.target command))
  else ledger

def moved : TokenLedger P :=
  if 0 < plan.amount then
    ((plan.opened command ledger).setAccount plan.source.address (some plan.spent)).setAccount
      plan.destination (some ((plan.target command).credited plan.amount
        (runtime.fee command.mint plan.token.mint plan.amount)))
  else plan.opened command ledger

def harvested : TokenLedger P :=
  if plan.close = true ∧ plan.Withholds then
    (plan.moved command runtime ledger).setAccount plan.source.address (some plan.spent.harvested)
  else plan.moved command runtime ledger

def settled : TokenLedger P :=
  if plan.close then
    (plan.harvested command runtime ledger).setAccount plan.source.address none
  else plan.harvested command runtime ledger

/-- The rules for a transfer that a migration is not checked against: its mint is not paused,
its owner is no multisig and moves no more than an allowance that it has set itself, and an
existing destination takes transfers without a memo and in public. -/
structure TransferUnimpeded : Prop where
  single : runtime.isMultisig plan.source.owner = false
  unpaused : plan.token.mint.paused = false
  allowance : plan.source.account.SpendsAllowance plan.token.mint plan.source.owner →
    plan.amount ≤ plan.source.account.delegatedAmount
  unmarked : ∀ account ∈ plan.destinationAccount, account.memoTransfer ≠ some true
  credits : ∀ account ∈ plan.destinationAccount,
    ∀ confidential ∈ account.confidentialTransfer, confidential.allowNonConfidentialCredits = true

/-- Who closes the source signs alone, and what nobody owns is burned. -/
structure CloseUnimpeded : Prop where
  burned : plan.source.owner = default ∨ plan.source.owner = runtime.incinerator →
    plan.rentRecipient = runtime.incinerator
  single : plan.source.owner ≠ default ∧ plan.source.owner ≠ runtime.incinerator →
    runtime.isMultisig (plan.source.account.closeAuthority.getD plan.source.owner) = false

/-- The same, with the rules for closing the source, and for creating a destination that someone
can pay for. -/
structure Unimpeded : Prop where
  created : 0 < plan.amount ∧ plan.destinationAccount = none →
    runtime.canCreate (command.funder.getD plan.source.owner) plan.source.newOwner command.mint =
      true
  transferred : 0 < plan.amount → plan.TransferUnimpeded runtime
  closed : plan.close = true → plan.CloseUnimpeded runtime

/-- The accounts of a plan, as a ledger has them. -/
structure OnLedger : Prop where
  program : ledger.tokenProgram = plan.token.tokenProgram
  mint : ledger.mint command.mint = some plan.token.mint
  source : ledger.account plan.source.address = some plan.source.account
  sourceMint : plan.source.account.mint = command.mint
  sourceFees : plan.source.account.transferFeeAmount.isSome = plan.token.mint.hasTransferFee
  destination : ∀ account ∈ plan.destinationAccount,
    ledger.account plan.destination = some account ∧ account.mint = command.mint ∧
    account.transferFeeAmount.isSome = plan.token.mint.hasTransferFee ∧
    plan.source.account.amount.toNat + account.amount.toNat +
      (account.transferFeeAmount.getD 0).toNat < 2 ^ 64
  absent : 0 < plan.amount → plan.destinationAccount = none →
    ledger.account plan.destination = none

section Facts

variable {K : MigrateToolkit P} {client : ChainClient P} {command : TokenCommand P}
  {plan : TokenPlan P} {runtime : TokenRuntime P} {ledger : TokenLedger P}

theorem opened_tokenProgram :
    (plan.opened command ledger).tokenProgram = ledger.tokenProgram := by
  unfold opened
  split <;> rfl

theorem opened_mint : (plan.opened command ledger).mint = ledger.mint := by
  unfold opened
  split <;> rfl

theorem OnLedger.opened_source (on : plan.OnLedger command ledger)
    (different : plan.source.address ≠ plan.destination) :
    (plan.opened command ledger).account plan.source.address = some plan.source.account := by
  unfold opened
  split
  · rw [TokenLedger.setAccount_other _ _ different, on.source]
  · exact on.source

theorem OnLedger.opened_target (on : plan.OnLedger command ledger) (positive : 0 < plan.amount) :
    (plan.opened command ledger).account plan.destination = some (plan.target command) := by
  unfold opened
  split
  · rw [TokenLedger.setAccount_same]
  · rename_i existing
    obtain ⟨account, here⟩ := Option.ne_none_iff_exists'.mp fun missing =>
      existing ⟨positive, missing⟩
    rw [(on.destination account here).1, target, here, Option.getD_some]

/-- What a transfer asks of its destination, whether it was there or not. -/
structure TargetReady (command : TokenCommand P) (plan : TokenPlan P) : Prop where
  mint : (plan.target command).mint = command.mint
  owner : (plan.target command).owner = plan.source.newOwner
  thawed : (plan.target command).isFrozen = false
  fees : (plan.target command).transferFeeAmount.isSome = plan.token.mint.hasTransferFee
  room : plan.source.account.amount.toNat + (plan.target command).amount.toNat +
    ((plan.target command).transferFeeAmount.getD 0).toNat < 2 ^ 64

theorem OnLedger.targetReady (on : plan.OnLedger command ledger)
    (checked : plan.Checked K client command) (sound : plan.Sound) (positive : 0 < plan.amount) :
    plan.TargetReady command := by
  have some : plan.amount ≠ 0 := UInt64.pos_iff_ne_zero.mp positive
  cases existing : plan.destinationAccount with
  | none =>
      have target : plan.target command =
          .fresh plan.token.mint command.mint plan.source.newOwner := by
        rw [TokenPlan.target, existing, Option.getD_none]
      have starts := sound.startsThawed positive existing
      have small := plan.source.account.amount.toNat_lt
      refine ⟨by rw [target]; rfl, by rw [target]; rfl, ?_, ?_, ?_⟩
      · rw [target, TokenAccount.isFrozen, TokenAccount.fresh, if_neg starts]
        rfl
      · rw [target, TokenAccount.fresh]
        cases plan.token.mint.hasTransferFee <;> rfl
      · rw [target, TokenAccount.fresh]
        cases plan.token.mint.hasTransferFee <;> exact small
  | some account =>
      have target : plan.target command = account := by
        rw [TokenPlan.target, existing, Option.getD_some]
      obtain ⟨-, mint, fees, room⟩ := on.destination account existing
      obtain ⟨-, -, owner, thawed⟩ := checked.destination account existing
      rw [← target] at mint fees room owner thawed
      exact ⟨mint, owner, thawed.resolve_left some, fees, room⟩

theorem fee_le (rules : runtime.Laws K) (address : P.Address) (mint : P.Mint) (amount : UInt64) :
    runtime.fee address mint amount ≤ amount := by
  unfold TokenEnvironment.fee
  split
  · exact rules.fee_le address amount
  · exact UInt64.zero_le

/-- There is room for the amount, and for the fee where one is withheld. -/
theorem TargetReady.fits (ready : plan.TargetReady command)
    (enough : plan.amount ≤ plan.source.account.amount) (rules : runtime.Laws K) :
    (plan.target command).amount.toNat + plan.amount.toNat < 2 ^ 64 ∧
      (0 < runtime.fee command.mint plan.token.mint plan.amount →
        ∃ withheld ∈ (plan.target command).transferFeeAmount, withheld.toNat +
          (runtime.fee command.mint plan.token.mint plan.amount).toNat < 2 ^ 64) := by
  have below := UInt64.le_iff_toNat_le.mp enough
  have fee := UInt64.le_iff_toNat_le.mp (fee_le rules command.mint plan.token.mint plan.amount)
  have room := ready.room
  refine ⟨by omega, fun positive => ?_⟩
  have charged : plan.token.mint.hasTransferFee = true := by
    by_contra free
    rw [TokenEnvironment.fee, if_neg free] at positive
    exact absurd positive (UInt64.lt_irrefl 0)
  obtain ⟨withheld, kept⟩ := Option.isSome_iff_exists.mp (ready.fees.trans charged)
  rw [kept, Option.getD_some] at room
  exact ⟨withheld, kept, by omega⟩

/-- Of a transfer's rules, those that the plan was not checked against are left. -/
theorem OnLedger.transferRules_iff (on : plan.OnLedger command ledger)
    (checked : plan.Checked K client command) (sound : plan.Sound) (rules : runtime.Laws K)
    (positive : 0 < plan.amount) {previous : Option P.Address}
    (first : plan.destinationAccount ≠ none → previous = none) :
    runtime.TransferRules previous command.mint plan.token.mint plan.source.account
        (plan.target command) plan.source.owner plan.amount plan.token.mint.decimals ↔
      plan.TransferUnimpeded runtime := by
  have ready := on.targetReady checked sound positive
  have target (account : P.TokenAccount) (existing : account ∈ plan.destinationAccount) :
      plan.target command = account := by
    rw [TokenPlan.target, Option.mem_def.mp existing, Option.getD_some]
  constructor
  · intro allowed
    refine ⟨allowed.single, allowed.unpaused, fun spends => ?_,
      fun account existing required => ?_, fun account existing => ?_⟩
    · rcases allowed.authorized with permanent | authorized
      · exact absurd permanent spends.1
      · rw [if_pos spends] at authorized
        exact authorized
    · rw [← target account existing] at required
      obtain ⟨program, before, -⟩ := allowed.memo required
      have present : plan.destinationAccount ≠ none := Option.ne_none_iff_exists'.mpr ⟨_, existing⟩
      rw [first present] at before
      cases before
    · rw [← target account existing]
      exact allowed.credits
  · intro unread
    obtain ⟨single, unpaused, allowance, unmarked, credits⟩ := unread
    obtain ⟨room, withholds⟩ := ready.fits checked.amount rules
    have rest : (plan.amount - runtime.fee command.mint plan.token.mint plan.amount).toNat =
        plan.amount.toNat - (runtime.fee command.mint plan.token.mint plan.amount).toNat :=
      UInt64.toNat_sub_of_le _ _ (fee_le rules command.mint plan.token.mint plan.amount)
    refine ⟨checked.sourceMint, ready.mint, rfl, sound.thawed positive, ready.thawed,
      checked.amount, sound.transferable positive, unpaused, sound.unhooked positive,
      checked.unguarded, ?_, single, fun required => ?_, ?_, by omega, withholds⟩
    · by_cases spends : plan.source.account.SpendsAllowance plan.token.mint plan.source.owner
      · exact .inr (by rw [if_pos spends]; exact allowance spends)
      · exact .inr (by rw [if_neg spends]; exact checked.sourceOwner)
    · cases existing : plan.destinationAccount with
      | none =>
          rw [TokenPlan.target, existing, Option.getD_none] at required
          cases required
      | some account =>
          rw [target account existing] at required
          exact absurd required (unmarked account existing)
    · cases existing : plan.destinationAccount with
      | none =>
          rw [TokenPlan.target, existing, Option.getD_none]
          intro confidential kept
          cases kept
      | some account =>
          rw [target account existing]
          exact credits account existing

theorem OnLedger.moved_source (on : plan.OnLedger command ledger)
    (different : plan.source.address ≠ plan.destination) :
    (plan.moved command runtime ledger).account plan.source.address = some plan.spent := by
  unfold moved
  split
  · rw [TokenLedger.setAccount_other _ _ different, TokenLedger.setAccount_same]
  · rename_i zero
    rw [on.opened_source different, spent, if_neg zero]

theorem moved_tokenProgram :
    (plan.moved command runtime ledger).tokenProgram = ledger.tokenProgram := by
  unfold moved
  split
  · exact opened_tokenProgram
  · exact opened_tokenProgram

theorem moved_mint : (plan.moved command runtime ledger).mint = ledger.mint := by
  unfold moved
  split
  · exact opened_mint
  · exact opened_mint

theorem harvested_tokenProgram :
    (plan.harvested command runtime ledger).tokenProgram = ledger.tokenProgram := by
  unfold harvested
  split
  · exact moved_tokenProgram
  · exact moved_tokenProgram

/-- The transfer leaves everything about the source but its balance and its allowance. -/
theorem spent_eq : ∃ delegate delegatedAmount, plan.spent = { plan.source.account with
    amount := plan.source.account.amount - plan.amount, delegate := delegate
    delegatedAmount := delegatedAmount } := by
  unfold spent
  split
  · exact TokenAccount.debited_eq _ _ _ _
  · rename_i zero
    have none : plan.amount = 0 := by
      by_contra positive
      exact zero (UInt64.pos_iff_ne_zero.mpr positive)
    refine ⟨plan.source.account.delegate, plan.source.account.delegatedAmount, ?_⟩
    rw [none, UInt64.sub_zero]

/-- The account that is closed. -/
def kept (plan : TokenPlan P) : P.TokenAccount :=
  if plan.Withholds then plan.spent.harvested else plan.spent

theorem OnLedger.harvested_source (on : plan.OnLedger command ledger)
    (different : plan.source.address ≠ plan.destination) (closing : plan.close = true) :
    (plan.harvested command runtime ledger).account plan.source.address = some plan.kept := by
  by_cases withholds : plan.Withholds
  · rw [harvested, if_pos ⟨closing, withholds⟩, TokenLedger.setAccount_same, kept,
      if_pos withholds]
  · rw [harvested, if_neg fun both => withholds both.2, on.moved_source different, kept,
      if_neg withholds]

/-- No fees are withheld in it, and the rest is what was read. -/
theorem kept_eq : ∃ amount delegate delegatedAmount fees,
    plan.kept = { plan.source.account with
      amount := amount, delegate := delegate, delegatedAmount := delegatedAmount
      transferFeeAmount := fees } ∧ ∀ withheld ∈ fees, withheld = 0 := by
  obtain ⟨delegate, delegatedAmount, same⟩ := @spent_eq P plan
  unfold kept
  split
  · rw [same]
    refine ⟨_, delegate, delegatedAmount, _, rfl, fun withheld here => ?_⟩
    obtain ⟨before, -, rfl⟩ := Option.map_eq_some_iff.mp here
    rfl
  · rename_i free
    refine ⟨_, delegate, delegatedAmount, _, same, fun withheld here => ?_⟩
    by_contra positive
    exact free ⟨withheld, here, UInt64.pos_iff_ne_zero.mpr positive⟩

/-- Nothing is left in an account that is closed. -/
theorem Checked.kept_amount (checked : plan.Checked K client command)
    (closing : plan.close = true) : plan.kept.amount = 0 := by
  obtain ⟨delegate, delegatedAmount, same⟩ := @spent_eq P plan
  have all := (checked.close.mp closing).1
  have empty : plan.spent.amount = 0 := by
    rw [same]
    show plan.source.account.amount - plan.amount = 0
    rw [all, UInt64.sub_self]
  unfold kept
  split
  · exact empty
  · exact empty

/-- Of the rules for closing, those that the plan was not checked against are left. -/
theorem Checked.closeRules_iff (checked : plan.Checked K client command) (sound : plan.Sound)
    (closing : plan.close = true) :
    runtime.CloseRules plan.source.address plan.kept plan.rentRecipient
        (plan.source.account.closeAuthority.getD plan.source.owner) ↔
      plan.CloseUnimpeded runtime := by
  obtain ⟨amount, delegate, delegatedAmount, fees, same, empty⟩ := @kept_eq P plan
  rw [same]
  constructor
  · intro allowed
    refine ⟨fun nobody => allowed.burned (checked.sourceOwner ▸ nobody), fun somebody => ?_⟩
    exact (allowed.authorized (checked.sourceOwner ▸ somebody)).2.1
  · intro unread
    obtain ⟨burned, single⟩ := unread
    rw [← checked.sourceOwner] at burned
    refine ⟨sound.rent closing, burned, fun somebody => ⟨?_, ?_, fun guarded => ?_⟩,
      sound.confidential closing, sound.confidentialFee closing, empty⟩
    · rw [checked.sourceOwner]
    · exact single (checked.sourceOwner ▸ somebody)
    · exact absurd guarded checked.unguarded

theorem creates_eq : plan.creates command =
    if 0 < plan.amount ∧ plan.destinationAccount = none then
      [.create (command.funder.getD plan.source.owner) plan.source.newOwner command.mint
        plan.token.tokenProgram]
    else [] := by
  unfold creates funder
  split <;> rfl

theorem OnLedger.create_rules (on : plan.OnLedger command ledger)
    (checked : plan.Checked K client command) (rules : runtime.Laws K)
    (creating : 0 < plan.amount ∧ plan.destinationAccount = none) {previous : Option P.Address}
    {instruction : P.Instruction}
    (carries : (TokenOperation.create (command.funder.getD plan.source.owner) plan.source.newOwner
      command.mint plan.token.tokenProgram).build K = .ok instruction) (middle : TokenLedger P) :
    runtime.invoke previous ledger instruction = .ok middle ↔
      runtime.canCreate (command.funder.getD plan.source.owner) plan.source.newOwner
        command.mint = true ∧
      middle = ledger.setAccount plan.destination (some (plan.target command)) := by
  obtain rfl := Except.ok.inj carries
  have associated := (checked.associated creating.2).1
  have absent := on.absent creating.1 creating.2
  rw [associated, ← on.program] at absent
  have created := rules.create previous ledger (command.funder.getD plan.source.owner)
    plan.source.newOwner command.mint plan.token.mint middle on.mint absent
  rw [on.program, ← associated] at created
  rw [created, TokenPlan.target, creating.2, Option.getD_none]

theorem OnLedger.transfer_rules (on : plan.OnLedger command ledger)
    (checked : plan.Checked K client command) (sound : plan.Sound) (rules : runtime.Laws K)
    (positive : 0 < plan.amount) {previous : Option P.Address}
    (first : plan.destinationAccount ≠ none → previous = none) {instruction : P.Instruction}
    (carries : (TokenOperation.transfer plan.token.tokenProgram plan.source.address command.mint
      plan.destination plan.source.owner plan.amount plan.token.mint.decimals).build K =
        .ok instruction) (middle : TokenLedger P) :
    runtime.invoke previous (plan.opened command ledger) instruction = .ok middle ↔
      plan.TransferUnimpeded runtime ∧ middle = plan.moved command runtime ledger := by
  have program : (plan.opened command ledger).tokenProgram = plan.token.tokenProgram :=
    opened_tokenProgram.trans on.program
  have mint : (plan.opened command ledger).mint command.mint = some plan.token.mint := by
    rw [opened_mint]
    exact on.mint
  rw [rules.transfer previous (plan.opened command ledger) plan.source.address command.mint
    plan.destination plan.source.owner plan.amount plan.token.mint.decimals instruction
    plan.token.mint plan.source.account (plan.target command) middle (program ▸ carries)
    checked.different mint (on.opened_source checked.different)
    (on.opened_target positive),
    on.transferRules_iff checked sound rules positive first, moved, if_pos positive, spent,
    if_pos positive]

theorem OnLedger.harvest_rules (on : plan.OnLedger command ledger)
    (checked : plan.Checked K client command) (rules : runtime.Laws K)
    (harvesting : plan.close = true ∧ plan.Withholds) {previous : Option P.Address}
    {instruction : P.Instruction}
    (carries : (TokenOperation.harvest plan.token.tokenProgram command.mint
      plan.source.address).build K = .ok instruction) (middle : TokenLedger P) :
    runtime.invoke previous (plan.moved command runtime ledger) instruction = .ok middle ↔
      True ∧ middle = (plan.moved command runtime ledger).setAccount plan.source.address
        (some plan.spent.harvested) := by
  have program : (plan.moved command runtime ledger).tokenProgram = plan.token.tokenProgram :=
    moved_tokenProgram.trans on.program
  have stored : (plan.moved command runtime ledger).mint command.mint = some plan.token.mint := by
    rw [moved_mint]
    exact on.mint
  obtain ⟨delegate, delegatedAmount, same⟩ := @spent_eq P plan
  have mint : plan.spent.mint = command.mint := by
    rw [same]
    exact checked.sourceMint
  obtain ⟨withheld, kept, -⟩ := harvesting.2
  have charged : plan.token.mint.hasTransferFee = true := by
    rw [← on.sourceFees, Option.mem_def.mp kept]
    rfl
  rw [rules.harvest previous (plan.moved command runtime ledger) plan.source.address command.mint
    instruction plan.token.mint plan.spent middle (program ▸ carries) stored
    (on.moved_source checked.different) mint]
  exact and_congr_left' (iff_true_intro charged)

theorem OnLedger.close_rules (on : plan.OnLedger command ledger)
    (checked : plan.Checked K client command) (sound : plan.Sound) (rules : runtime.Laws K)
    (closing : plan.close = true) {previous : Option P.Address} {instruction : P.Instruction}
    (carries : (TokenOperation.close plan.token.tokenProgram plan.source.address
      plan.rentRecipient (plan.source.account.closeAuthority.getD plan.source.owner)).build K =
        .ok instruction) (middle : TokenLedger P) :
    runtime.invoke previous (plan.harvested command runtime ledger) instruction = .ok middle ↔
      plan.CloseUnimpeded runtime ∧ middle = (plan.harvested command runtime ledger).setAccount plan.source.address none := by
  have program : (plan.harvested command runtime ledger).tokenProgram = plan.token.tokenProgram :=
    harvested_tokenProgram.trans on.program
  rw [rules.close previous (plan.harvested command runtime ledger) plan.source.address
    plan.rentRecipient (plan.source.account.closeAuthority.getD plan.source.owner) instruction
    plan.kept middle (program ▸ carries) (on.harvested_source checked.different closing)
    (checked.kept_amount closing), checked.closeRules_iff sound closing]

/-- The parts up to a close. -/
theorem OnLedger.runAll_harvested_iff (on : plan.OnLedger command ledger)
    (checked : plan.Checked K client command) (sound : plan.Sound) (rules : runtime.Laws K)
    {instructions : List P.Instruction}
    (builds : MigrateToken.Builds K
      (plan.creates command ++ plan.transfers command ++ plan.harvests command) instructions)
    (middle : TokenLedger P) :
    runtime.runAll none ledger instructions = .ok middle ↔
      ((0 < plan.amount ∧ plan.destinationAccount = none →
        runtime.canCreate (command.funder.getD plan.source.owner) plan.source.newOwner
          command.mint = true) ∧ (0 < plan.amount → plan.TransferUnimpeded runtime)) ∧
      middle = plan.harvested command runtime ledger := by
  obtain ⟨_, harvests, rfl, builds, harvest⟩ := exists_append_of_forall₂ builds
  obtain ⟨creates, transfers, rfl, create, transfer⟩ := exists_append_of_forall₂ builds
  rw [creates_eq] at create
  have first (existing : plan.destinationAccount ≠ none) :
      TokenRuntime.lastProgram none creates = none := by
    rw [if_neg fun both => existing both.2, List.forall₂_nil_left_iff] at create
    rw [create]
    rfl
  have created (middle : TokenLedger P) :
      runtime.runAll none ledger creates = .ok middle ↔
        (0 < plan.amount ∧ plan.destinationAccount = none →
          runtime.canCreate (command.funder.getD plan.source.owner) plan.source.newOwner
            command.mint = true) ∧ middle = plan.opened command ledger :=
    runtime.runAll_part create fun creating _ carries =>
      on.create_rules checked rules creating carries middle
  have transferred (middle : TokenLedger P) :
      runtime.runAll (TokenRuntime.lastProgram none creates) (plan.opened command ledger)
          transfers = .ok middle ↔
        (0 < plan.amount → plan.TransferUnimpeded runtime) ∧
          middle = plan.moved command runtime ledger := by
    refine (runtime.runAll_part transfer fun positive _ carries =>
      on.transfer_rules checked sound rules positive first carries middle).trans ?_
    unfold moved
    split <;> rfl
  have collected (previous : Option P.Address) (middle : TokenLedger P) :
      runtime.runAll previous (plan.moved command runtime ledger) harvests = .ok middle ↔
        (plan.close = true ∧ plan.Withholds → True) ∧
          middle = plan.harvested command runtime ledger :=
    runtime.runAll_part harvest fun harvesting _ carries =>
      on.harvest_rules checked rules harvesting carries middle
  constructor
  · intro ran
    obtain ⟨_, ran, harvesting⟩ := runtime.runAll_append.mp ran
    obtain ⟨_, creating, transferring⟩ := runtime.runAll_append.mp ran
    obtain ⟨canCreate, rfl⟩ := (created _).mp creating
    obtain ⟨unimpeded, rfl⟩ := (transferred _).mp transferring
    obtain ⟨-, rfl⟩ := (collected _ _).mp harvesting
    exact ⟨⟨canCreate, unimpeded⟩, rfl⟩
  · intro unimpeded
    obtain ⟨⟨canCreate, unimpeded⟩, rfl⟩ := unimpeded
    refine runtime.runAll_append.mpr ⟨_, ?_, (collected _ _).mpr ⟨fun _ => trivial, rfl⟩⟩
    exact runtime.runAll_append.mpr ⟨_, (created _).mpr ⟨canCreate, rfl⟩,
      (transferred _).mpr ⟨unimpeded, rfl⟩⟩

/-- A migration's instructions run through exactly if the rules that were left unread hold. -/
theorem OnLedger.runAll_iff (on : plan.OnLedger command ledger)
    (checked : plan.Checked K client command) (sound : plan.Sound) (rules : runtime.Laws K)
    {instructions : List P.Instruction}
    (builds : MigrateToken.Builds K (plan.operations command) instructions)
    (final : TokenLedger P) :
    runtime.runAll none ledger instructions = .ok final ↔
      plan.Unimpeded command runtime ∧ final = plan.settled command runtime ledger := by
  obtain ⟨_, memos, rfl, builds, memo⟩ := exists_append_of_forall₂ builds
  obtain ⟨_, closes, rfl, builds, close⟩ := exists_append_of_forall₂ builds
  have before := on.runAll_harvested_iff checked sound rules builds
  have closed (previous : Option P.Address) (middle : TokenLedger P) :
      runtime.runAll previous (plan.harvested command runtime ledger) closes = .ok middle ↔
        (plan.close = true → plan.CloseUnimpeded runtime) ∧
          middle = plan.settled command runtime ledger :=
    runtime.runAll_part close fun closing _ carries =>
      on.close_rules checked sound rules closing carries middle
  have noted (previous : Option P.Address) (before : TokenLedger P) :
      runtime.runAll previous before memos = .ok final ↔ final = before := by
    rw [List.forall₂_cons_left_iff] at memo
    obtain ⟨instruction, rest, carries, none, rfl⟩ := memo
    obtain rfl := List.forall₂_nil_left_iff.mp none
    obtain rfl := Except.ok.inj carries
    simp only [TokenRuntime.runAll, bind_ok_iff, Except.ok.injEq, exists_eq_right, rules.memo]
  constructor
  · intro ran
    obtain ⟨_, ran, note⟩ := runtime.runAll_append.mp ran
    obtain ⟨_, ran, closing⟩ := runtime.runAll_append.mp ran
    obtain ⟨⟨canCreate, unimpeded⟩, rfl⟩ := (before _).mp ran
    obtain ⟨closable, rfl⟩ := (closed _ _).mp closing
    exact ⟨⟨canCreate, unimpeded, closable⟩, (noted _ _).mp note⟩
  · intro unimpeded
    obtain ⟨unimpeded, rfl⟩ := unimpeded
    refine runtime.runAll_append.mpr ⟨_, ?_, (noted _ _).mpr rfl⟩
    exact runtime.runAll_append.mpr
      ⟨_, (before _).mpr ⟨⟨unimpeded.created, unimpeded.transferred⟩, rfl⟩,
        (closed _ _).mpr ⟨unimpeded.closed, rfl⟩⟩

end Facts

/-- What a run of a migration's instructions comes to: the amount is gone from the source, which
may be closed, and held by the destination for the new owner, and nothing else has changed. -/
structure Settles (command : TokenCommand P) (plan : TokenPlan P)
    (ledger final : TokenLedger P) : Prop where
  closed : plan.close = true → final.account plan.source.address = none
  source : plan.close = false → ∃ left, final.account plan.source.address = some left ∧
    left.mint = command.mint ∧ left.owner = plan.source.owner ∧
    left.amount.toNat + plan.amount.toNat = plan.source.account.amount.toNat
  destination : 0 < plan.amount → ∃ received, final.account plan.destination = some received ∧
    received.mint = command.mint ∧ received.owner = plan.source.newOwner ∧
    received.held = plan.destinationAccount.elim 0 TokenAccount.held + plan.amount.toNat
  others : ∀ address, address ≠ plan.source.address →
    (address = plan.destination → plan.amount = 0) →
    final.account address = ledger.account address

section Settled

variable {K : MigrateToolkit P} {client : ChainClient P} {command : TokenCommand P}
  {plan : TokenPlan P} {runtime : TokenRuntime P} {ledger : TokenLedger P}

theorem settled_other {address : P.Address} (other : address ≠ plan.source.address) :
    (plan.settled command runtime ledger).account address =
      (plan.moved command runtime ledger).account address := by
  have harvest : (plan.harvested command runtime ledger).account address =
      (plan.moved command runtime ledger).account address := by
    unfold harvested
    split
    · exact TokenLedger.setAccount_other _ _ other
    · rfl
  unfold settled
  split
  · rw [TokenLedger.setAccount_other _ _ other, harvest]
  · exact harvest

theorem moved_other {address : P.Address} (other : address ≠ plan.source.address)
    (unused : address = plan.destination → plan.amount = 0) :
    (plan.moved command runtime ledger).account address = ledger.account address := by
  by_cases positive : 0 < plan.amount
  · have elsewhere : address ≠ plan.destination := fun same =>
      UInt64.pos_iff_ne_zero.mp positive (unused same)
    rw [moved, if_pos positive, TokenLedger.setAccount_other _ _ elsewhere,
      TokenLedger.setAccount_other _ _ other, opened]
    split
    · exact TokenLedger.setAccount_other _ _ elsewhere
    · rfl
  · rw [moved, if_neg positive, opened, if_neg fun both => positive both.1]

/-- A run that goes through moves just what it reports. -/
theorem OnLedger.settles (on : plan.OnLedger command ledger)
    (checked : plan.Checked K client command) (sound : plan.Sound) (rules : runtime.Laws K) :
    plan.Settles command ledger (plan.settled command runtime ledger) := by
  refine ⟨fun closing => ?_, fun stays => ?_, fun positive => ?_, fun address other unused => ?_⟩
  · rw [settled, if_pos closing, TokenLedger.setAccount_same]
  · obtain ⟨delegate, delegatedAmount, same⟩ := @spent_eq P plan
    have unclosed : ¬plan.close = true := by rw [stays]; decide
    refine ⟨plan.spent, ?_, ?_, ?_, ?_⟩
    · rw [settled, if_neg unclosed, harvested, if_neg fun both => unclosed both.1,
        on.moved_source checked.different]
    · rw [same]
      exact checked.sourceMint
    · rw [same]
      exact checked.sourceOwner
    · rw [same]
      show (plan.source.account.amount - plan.amount).toNat + plan.amount.toNat = _
      have enough := UInt64.le_iff_toNat_le.mp checked.amount
      rw [UInt64.toNat_sub_of_le _ _ checked.amount]
      omega
  · have ready := on.targetReady checked sound positive
    obtain ⟨room, withholds⟩ := ready.fits checked.amount rules
    refine ⟨(plan.target command).credited plan.amount
      (runtime.fee command.mint plan.token.mint plan.amount), ?_, ready.mint, ready.owner, ?_⟩
    · rw [settled_other (Ne.symm checked.different), moved, if_pos positive,
        TokenLedger.setAccount_same]
    · rw [TokenAccount.held_credited (fee_le rules _ _ _) room withholds]
      congr 1
      cases existing : plan.destinationAccount with
      | none =>
          rw [TokenPlan.target, existing, Option.getD_none, TokenAccount.fresh]
          cases plan.token.mint.hasTransferFee <;> rfl
      | some account =>
          rw [TokenPlan.target, existing, Option.getD_some]
          rfl
  · rw [settled_other other, moved_other other unused]

end Settled

section Migration

variable {K : MigrateToolkit P} {client : ChainClient P} {command : TokenCommand P}
  {plan : TokenPlan P} {runtime : TokenRuntime P} {ledger : TokenLedger P}

end Migration

end TokenPlan

/-- A message's instructions are some instructions, compiled against its keys. -/
def CompiledFrom (message : P.Message) (instructions : List P.Instruction) : Prop :=
  List.Forall₂ (fun instruction entry =>
    message.accountKeys[entry.programIdIndex.toNat]? = some instruction.programId ∧
    entry.accounts.map (fun index => message.accountKeys[index.toNat]?) =
      instruction.accounts.map (fun account => some account.pubkey) ∧
    entry.data = instruction.data) instructions message.instructions

end ProgrammaticSigner
