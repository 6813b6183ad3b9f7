import ProgrammaticSigner.Cli.Compiled
import ProgrammaticSigner.Cli.Sent

set_option autoImplicit false

/- What `transaction submit` sends runs: its checks are those that the programs need, so the
relay does what the signed instructions do. -/
namespace ProgrammaticSigner

open Outcome V1Transaction

variable {P : Platform}

section Loading

theorem AtLeast.trans {account middle original : P.AccountMeta} (first : AtLeast account middle)
    (second : AtLeast middle original) : AtLeast account original :=
  ⟨first.pubkey.trans second.pubkey, fun signs => first.signer (second.signer signs),
    fun writes => first.writable (second.writable writes)⟩

theorem LoadedAs.trans {received middle built : P.Instruction} (first : LoadedAs received middle)
    (second : LoadedAs middle built) : LoadedAs received built := by
  refine ⟨first.programId.trans second.programId, first.data.trans second.data, ?_⟩
  have related := List.forall₂_iff_get.mp first.accounts
  have below := List.forall₂_iff_get.mp second.accounts
  refine List.forall₂_iff_get.mpr ⟨related.1.trans below.1, fun index inside last => ?_⟩
  have within : index < middle.accounts.length := related.1 ▸ inside
  exact (related.2 index inside within).trans (below.2 index within last)

theorem LoadedAs.granted {received built : P.Instruction} (loads : LoadedAs received built) :
    GrantedFor built received.views := by
  refine ⟨received.views_addresses.trans loads.addresses, ?_⟩
  intro index account original present listed marked
  have addresses := congrArg (fun keys => keys[index]?) loads.addresses
  obtain ⟨given, here, rfl⟩ := Option.map_eq_some_iff.mp (List.getElem?_map.symm.trans present)
  simp only [List.getElem?_map, here, listed, Option.map_some, Option.some.injEq] at addresses
  show received.grantsSigner given.pubkey = true
  rw [addresses]
  exact loads.grantsSigner (Instruction.grantsSigner_iff.mpr
    ⟨original, List.mem_of_getElem? listed, rfl, marked⟩)

/-- The message writes to neither of the programs that its relay transaction calls. -/
def SparesPrograms (message : P.Message) : Prop :=
  ∀ (index : Nat) key, message.accountKeys[index]? = some key →
    P.isMaybeWritable message index = true → key ≠ P.signerProgram ∧ key ≠ default

end Loading

section Sent

variable {K : Toolkit P}

/-- The relay transaction of a run, with the fee payer and the durable nonce it found. -/
def PreparedRelay.payment (K : Toolkit P) (prepared : PreparedRelay P) (feePayer : P.Address)
    (durableNonce : Option (P.Address × P.Address)) : Payment P :=
  ⟨feePayer, relayInstructions K prepared.message
    (authoritySlots prepared.message prepared.authoritySignatures)
    (Submit.submitSigners prepared.execute prepared.message.signerKeys
      prepared.authoritySignatures) durableNonce⟩

/-- The transaction gives the `Submit` what the client's own instruction asks for. -/
theorem PreparedRelay.loads (prepared : PreparedRelay P) (feePayer : P.Address)
    (durableNonce : Option (P.Address × P.Address))
    (system : ∀ nonceAccount nonceAuthority,
      (K.advanceNonceAccount nonceAccount nonceAuthority).programId = default)
    (spares : SparesPrograms prepared.message) :
    LoadedAs ((prepared.payment K feePayer durableNonce).load prepared.submit) prepared.submit := by
  refine Payment.loadedAs_of_uncalled mem_relayInstructions fun account among marked => ?_
  obtain ⟨index, here⟩ := List.mem_iff_getElem?.mp among
  have key : prepared.message.accountKeys[index]? = some account.pubkey := by
    rw [← markedSubmit_addresses prepared.message, List.getElem?_map]
    exact congrArg (Option.map AccountMeta.pubkey) here
  have same := (markedSubmit_getElem? key).symm.trans here
  have writable : P.isMaybeWritable prepared.message index = true := by
    rw [← Option.some.inj same] at marked
    exact marked
  obtain ⟨signer, apart⟩ := spares index _ key writable
  rw [Bool.eq_false_iff, ne_eq, Payment.calls_iff]
  intro called
  obtain ⟨instruction, listed, program⟩ := called
  cases durableNonce with
  | none =>
      rw [List.mem_singleton.mp listed] at program
      exact signer program.symm
  | some pair =>
      rcases List.mem_cons.mp listed with rfl | listed
      · exact apart (program.symm.trans (system _ _))
      · rw [List.mem_singleton.mp listed] at program
        exact signer program.symm

end Sent

end ProgrammaticSigner
