import ProgrammaticSigner.Cli.Toolkit
import ProgrammaticSigner.Nonce.Freshness

set_option autoImplicit false

/- The nonce values the command line predicts offline, and the step that signs a message
once its signers confirm it. -/
namespace ProgrammaticSigner

open Outcome

variable {P : Platform}

namespace Summary

/-- `str::eq_ignore_ascii_case` -/
def eqIgnoreAsciiCase (left right : Text) : Bool :=
  left.map Char.toLower == right.map Char.toLower

/-- Confirm once before signing if any signer has no approval step of its own. -/
def confirmSigning (client : Client P) (signers : List (P.Address × P.LocalSigner))
    (skipConfirmation : Bool) : Except Failure Unit :=
  if skipConfirmation || signers.all fun entry => entry.2.isInteractive then .ok ()
  else do
    let line ← context "failed to read signing confirmation" client.readLine
    let answer := trim line
    ensure (eqIgnoreAsciiCase answer ['y'] || eqIgnoreAsciiCase answer ['y', 'e', 's'])
      ["signing cancelled"]

/-- Sign the authorization message with each signer. -/
def signAuthorizationMessage (K : Toolkit P) (authorizationMessage : P.Message)
    (signers : List (P.Address × P.LocalSigner)) :
    Except Failure (List (P.Address × P.Signature)) :=
  signers.mapM fun entry => do
    let signature ← context
      s!"failed to sign authorization message with {K.display entry.1}"
      (entry.2.trySignMessage (Platform.serializeV1 authorizationMessage))
    return (entry.1, signature)

end Summary

/-- The value the nonce account holds after the executor runs the message, whose
lifetime specifier is the expected nonce. -/
def nextNonce (nonceAccount : P.Address) (executionMessage : P.Message) : P.Hash :=
  Nonce.deriveNextNonce
    { (default : P.Nonce) with nonce := executionMessage.lifetimeSpecifier }
    P.nonceProgram nonceAccount (deriveTransitionCommitment (.v1 executionMessage))

/-- The advance of an execution, as a link of the nonce's chain. -/
def executionLink (nonceAccount : P.Address) (executionMessage : P.Message) : P.Address × P.Hash :=
  (nonceAccount, deriveTransitionCommitment (.v1 executionMessage))

/-- The prediction is the value the program derives from what the account stores. -/
theorem nextNonce_eq {nonceAccount : P.Address} {executionMessage : P.Message} {state : P.Nonce}
    (current : executionMessage.lifetimeSpecifier = state.nonce) :
    nextNonce nonceAccount executionMessage =
      state.deriveNextNonce P.nonceProgram nonceAccount
        (deriveTransitionCommitment (.v1 executionMessage)) :=
  Nonce.deriveNextNonce_congr current _ _ _

theorem nextNonce_extend (keys : P.KeyLaws) (hashes : P.HashLaws) (nonceAccount : P.Address)
    (executionMessage : P.Message) :
    nextNonce nonceAccount executionMessage =
      (nonceChain keys hashes).extend executionMessage.lifetimeSpecifier
        (executionLink nonceAccount executionMessage) := rfl

theorem executionLink_inj (hashes : P.HashLaws) {nonceAccount : P.Address}
    {first second : P.Message} (one : P.messageWire.Fits (.v1 first))
    (two : P.messageWire.Fits (.v1 second))
    (same : executionLink nonceAccount first = executionLink nonceAccount second) :
    first = second :=
  VersionedMessage.v1.inj (deriveTransitionCommitment_inj hashes one two (Prod.mk.inj same).2)

/-- Messages presigned in a row: each one's lifetime is the nonce the last one leaves. -/
def Presigned (nonceAccount : P.Address) : P.Hash → List P.Message → Prop
  | _, [] => True
  | nonce, message :: later =>
      message.lifetimeSpecifier = nonce ∧
        Presigned nonceAccount (nextNonce nonceAccount message) later

/-- The nonce a row of executions leaves. -/
def nonceAfter (nonceAccount : P.Address) (nonce : P.Hash) (executed : List P.Message) : P.Hash :=
  executed.getLast?.elim nonce (nextNonce nonceAccount)

section Chain

variable (keys : P.KeyLaws) (hashes : P.HashLaws) {nonceAccount : P.Address}
include keys hashes

/-- The lifetime of a presigned message is what the ones before it lead to. -/
theorem Presigned.lifetime {nonce : P.Hash} {batch : List P.Message}
    (presigned : Presigned nonceAccount nonce batch) {index : Nat} {message : P.Message}
    (listed : batch[index]? = some message) :
    message.lifetimeSpecifier = (nonceChain keys hashes).after nonce
      ((batch.take index).map (executionLink nonceAccount)) := by
  induction batch generalizing nonce index with
  | nil => cases listed
  | cons first later ih =>
      obtain ⟨rfl, rest⟩ := presigned
      cases index with
      | zero =>
          obtain rfl := Option.some.inj listed
          rfl
      | succ index =>
          rw [ih rest listed, nextNonce_extend keys hashes]
          rfl

theorem Presigned.nonceAfter_eq {nonce : P.Hash} {batch : List P.Message}
    (presigned : Presigned nonceAccount nonce batch) (count : Nat) :
    nonceAfter nonceAccount nonce (batch.take count) = (nonceChain keys hashes).after nonce
      ((batch.take count).map (executionLink nonceAccount)) := by
  induction batch generalizing nonce count with
  | nil => simp [nonceAfter]
  | cons first later ih =>
      obtain ⟨rfl, rest⟩ := presigned
      cases count with
      | zero => rfl
      | succ count =>
          have tail := ih rest count
          rw [nextNonce_extend keys hashes] at tail
          rw [List.take_succ_cons, List.map_cons]
          refine Eq.trans ?_ tail
          simp only [nonceAfter, List.getLast?_cons]
          cases (later.take count).getLast? <;> rfl

/-- A presigned message is current only in its own turn. -/
theorem Presigned.turn {nonce : P.Hash} {batch : List P.Message}
    (presigned : Presigned nonceAccount nonce batch) {index count : Nat} {message : P.Message}
    (listed : batch[index]? = some message) (short : count ≤ batch.length)
    (current : message.lifetimeSpecifier =
      nonceAfter nonceAccount nonce (batch.take count)) : index = count := by
  rw [presigned.lifetime keys hashes listed, presigned.nonceAfter_eq keys hashes] at current
  have same := congrArg List.length
    ((nonceChain keys hashes).after_inj (nonceChain_acyclic keys hashes) current)
  obtain ⟨inside, -⟩ := List.getElem?_eq_some_iff.mp listed
  simp only [List.length_map, List.length_take] at same
  omega

/-- A later message's lifetime is reached over the advance of an earlier one. -/
theorem Presigned.successor {nonce : P.Hash} {batch : List P.Message}
    (presigned : Presigned nonceAccount nonce batch) {index position : Nat}
    {message successor : P.Message} (listed : batch[index]? = some message)
    (next : batch[position]? = some successor) (behind : index < position) :
    ∃ links, successor.lifetimeSpecifier = (nonceChain keys hashes).after
      message.lifetimeSpecifier (executionLink nonceAccount message :: links) := by
  induction batch generalizing nonce index position with
  | nil => cases listed
  | cons first later ih =>
      obtain ⟨rfl, rest⟩ := presigned
      obtain ⟨position, rfl⟩ := Nat.exists_eq_add_one_of_ne_zero (Nat.ne_zero_of_lt behind)
      cases index with
      | zero =>
          obtain rfl := Option.some.inj listed
          refine ⟨(later.take position).map (executionLink nonceAccount), ?_⟩
          rw [rest.lifetime keys hashes next, nextNonce_extend keys hashes]
          rfl
      | succ index => exact ih rest listed next (Nat.lt_of_succ_lt_succ behind)

theorem Presigned.nodup {nonce : P.Hash} {batch : List P.Message}
    (presigned : Presigned nonceAccount nonce batch) : batch.Nodup := by
  rw [List.nodup_iff_injective_get]
  intro left right same
  have one : batch[left.val]? = some (batch.get left) := List.getElem?_eq_getElem left.isLt
  have two : batch[right.val]? = some (batch.get left) :=
    same ▸ List.getElem?_eq_getElem right.isLt
  refine Fin.ext (presigned.turn keys hashes one right.isLt.le ?_)
  rw [presigned.lifetime keys hashes two, presigned.nonceAfter_eq keys hashes]

end Chain

end ProgrammaticSigner
