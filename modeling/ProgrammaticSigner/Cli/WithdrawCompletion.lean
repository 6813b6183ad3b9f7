import ProgrammaticSigner.Cli.Compiled
import ProgrammaticSigner.Cli.NonceRelay

set_option autoImplicit false

/- `nonce withdraw` through a PDA: the nonce advances first, and the withdrawal follows from what
is left of the account. -/
namespace ProgrammaticSigner

open Outcome

variable {P : Platform}

/-- The next nonce that is reported, unless the account is closed. -/
def NonceWithdrawResult.next : NonceWithdrawResult → Option Text
  | sent output => output.nonce
  | authorization output => output.nextNonce

section Steps

variable {sysvars : P.Sysvars} {ledger final : P.Ledger} {lamports : UInt64}
  {views others : List P.AccountView}

end Steps

section Advanced

variable {K : Toolkit P} {command : WithdrawCommand P} {client : AccountClient P}
  {plan : WithdrawPlan P} {ledger : P.Ledger} {previous : P.Nonce} {nonce : P.Hash}

/-- The account that was read, on another nonce. -/
def renewed (ledger : P.Ledger) (nonceAccount : P.Address) (previous : P.Nonce) (nonce : P.Hash) :
    P.Ledger :=
  Function.update ledger nonceAccount
    { ledger nonceAccount with data := .sized { previous with nonce } }

/-- An initialized nonce records the slot it was initialized in, so it stays one. -/
theorem Initialized.renewed {nonceAccount : P.Address}
    (held : Initialized (ledger nonceAccount) previous) (nonce : P.Hash)
    (slot : 0 < previous.initializeSlot) :
    Initialized (ProgrammaticSigner.renewed ledger nonceAccount previous nonce nonceAccount)
      { previous with nonce } := by
  rw [ProgrammaticSigner.renewed, Function.update_self]
  refine ⟨held.1, Nonce.view_ok_iff.mpr ⟨rfl, fun blank => ?_⟩⟩
  have zero : previous.initializeSlot = 0 := congrArg Nonce.initializeSlot blank
  rw [zero] at slot
  exact absurd slot (by decide)

/-- What was built on the account that was read stands after the nonce advanced. -/
theorem BuiltWithdraw.renewed
    (built : BuiltWithdraw client command (ledger command.nonceAccount) plan)
    (held : Initialized (ledger command.nonceAccount) previous)
    (slot : 0 < previous.initializeSlot) :
    BuiltWithdraw client command
      (ProgrammaticSigner.renewed ledger command.nonceAccount previous nonce command.nonceAccount)
      plan := by
  have kept := held.renewed nonce slot
  have lamports : (ProgrammaticSigner.renewed ledger command.nonceAccount previous nonce
      command.nonceAccount).lamports = (ledger command.nonceAccount).lamports := by
    rw [ProgrammaticSigner.renewed, Function.update_self]
  refine ⟨kept.1, built.different, lamports ▸ built.enough, lamports ▸ built.closes, ?_⟩
  obtain ⟨signer, shape, ⟨state, stored, authorized, exempt⟩ | ⟨blank, -⟩⟩ := built.withdraw
  · obtain rfl := Except.ok.inj (stored.symm.trans held.2)
    refine ⟨signer, shape, .inl ⟨_, kept.2, authorized, fun stays => ?_⟩⟩
    rw [lamports]
    exact exempt stays
  · exact absurd held.2 (blank previous)

end Advanced

namespace NonceWithdraw

variable {K : Toolkit P} {command : WithdrawCommand P} {client : AccountClient P}
  {authority : NonceAuthority P} {plan : WithdrawPlan P} {previous : P.Nonce} {pda : P.Address}

/-- How a run through a PDA may end: it sends the relay of the message that it signed, or prints
that message. -/
inductive Ends (K : Toolkit P) (command : WithdrawCommand P) (client : AccountClient P)
    (authority : NonceAuthority P) (plan : WithdrawPlan P) (previous : P.Nonce)
    (message : P.Message) (next : P.Hash) : NonceWithdrawResult → Prop where
  | sent {signature : P.Signature} {text : Text}
      (signs : P.verifyStrict authority.address signature (Platform.serializeV1 message) = true)
      (sends : sendRelayTransaction K client (SignerClient.submit [some signature] message) none =
        .ok text) :
      Ends K command client authority plan previous message next
        (sentOutput K command plan text next)
  | authorization (unsigned : authority.canSign = false) :
      Ends K command client authority plan previous message next
        (.authorization ⟨K.showAddress command.nonceAccount, K.showHash previous.nonce,
          if plan.closes then none else some (K.showHash next),
          K.showAddress command.destination, plan.lamports, K.showAddress authority.address,
          K.encodeBase64 (Platform.serializeV1 message)⟩)

theorem complete_ends (route : plan.route = .promoted previous pda) {message : P.Message}
    {next : P.Hash}
    (authorized : authorizePromotion K command authority plan previous pda = .ok (message, next))
    (sound : authority.canSign = true → ∀ bytes signature,
      authority.signer.trySignMessage bytes = .ok signature →
      P.verifyStrict authority.address signature bytes = true)
    {result : NonceWithdrawResult}
    (completed : complete K command client authority plan = .ok result) :
    Ends K command client authority plan previous message next result := by
  simp only [complete, route, bind_of_ok authorized] at completed
  split at completed
  · rename_i unsigned
    rw [← pure_ok_iff.mp completed]
    exact .authorization unsigned
  · rename_i able
    simp only [bind_ok_iff, context_ok_iff, pure_ok_iff] at completed
    obtain ⟨signature, signs, text, sends, rfl⟩ := completed
    exact .sent (sound (Bool.not_eq_false _ ▸ able) _ _ signs) sends

end NonceWithdraw

section Completion

variable {sysvars : P.Sysvars} {ledger : P.Ledger} {nonceAccount destination pda : P.Address}
  {lamports : UInt64} {nonce : P.Hash} {executionMessage : P.Message}

end Completion

namespace Reference

end Reference

end ProgrammaticSigner
