import ProgrammaticSigner.Cli.Sent

set_option autoImplicit false

/- Which local signers of `transaction submit` have a signature slot on the relay transaction
that it builds. -/
namespace ProgrammaticSigner

open Outcome V1Transaction

variable {P : Platform}

/-- A `--relay-signer` loads, and is the key of the address. -/
def RelaySignerGiven (command : SubmitCommand P) (client : Client P) (address : P.Address) :
    Prop :=
  ∃ source ∈ command.relaySigner, ∃ signer,
    client.loadSigner source "relay signer" false = .ok signer ∧ signer.tryPubkey = .ok address

/-- A `--signer` gives the address's signature over the authorization message. -/
def SignatureGiven (K : Toolkit P) (command : SubmitCommand P) (address : P.Address) : Prop :=
  ∃ entry ∈ command.signers, ∃ signature,
    Submit.parseSignatureEntry K entry "authority" = .ok (address, signature)

/-- The address signs the relay transaction whatever its role in the authorization message is. -/
def LoadedSigners.Signs (loaded : LoadedSigners P) (address : P.Address) : Prop :=
  address = loaded.feePayer ∨ ∃ nonce, loaded.durableNonce = some (nonce, address)

/-- Every local signer is a signer of the relay transaction, so if signing it fails, a signer
failed to sign. -/
structure SlotsReady (K : Toolkit P) (prepared : PreparedRelay P) : Prop where
  slots : ∀ entry ∈ prepared.signers,
    entry.1 ∈ prepared.transaction.message.signerKeys ∧
    ∃ index, signerIndex prepared.transaction entry.1 = some index
  fails : ∀ failure, tryPartialSign K (fillSlots prepared.transaction prepared.placed)
      (Platform.serializeV1 prepared.transaction.message)
      ((Submit.authorizationSigners prepared ++ Submit.relayOnlySigners prepared).map Prod.snd) =
        .error failure →
    ∃ entry ∈ prepared.signers, entry.2.trySignMessage
      (Platform.serializeV1 prepared.transaction.message) = .error failure

section Loading

variable {K : Toolkit P} {client : Client P}

/-- A signer is listed under its own address. -/
def Named (entry : P.Address × P.LocalSigner) : Prop := entry.2.tryPubkey = .ok entry.1

theorem loadRelaySigner_members {signers found : List (P.Address × P.LocalSigner)}
    {source : P.SignerSource} {name : String} {allowNullSigner : Bool} {address : P.Address}
    (loaded : Submit.loadRelaySigner client signers source name allowNullSigner =
      .ok (address, found)) :
    ∀ entry ∈ found, entry ∈ signers ∨ Named entry ∧ entry.1 = address := by
  simp only [Submit.loadRelaySigner, bind_ok_iff, pure_ok_iff, Prod.mk.injEq] at loaded
  obtain ⟨signer, _, named, names, rfl, rfl⟩ := loaded
  intro entry member
  cases source with
  | pubkey address => exact .inl member
  | other path =>
      rcases Sign.mem_addSigner member with kept | added
      · exact .inl kept
      · rw [added]
        exact .inr ⟨names, rfl⟩

theorem loadDurableNonce_members {command : SubmitCommand P}
    {relaySignatures : List (P.Address × P.Signature)} {feePayer : P.Address}
    {signers found : List (P.Address × P.LocalSigner)}
    {durableNonce : Option (P.Address × P.Address)}
    (loaded : Submit.loadDurableNonce command client relaySignatures feePayer signers =
      .ok (durableNonce, found)) :
    ∀ entry ∈ found, entry ∈ signers ∨
      Named entry ∧ ∃ nonce, durableNonce = some (nonce, entry.1) := by
  intro entry member
  unfold Submit.loadDurableNonce at loaded
  split at loaded
  · obtain ⟨_, rfl⟩ := Prod.mk.inj (Except.ok.inj loaded)
    exact .inl member
  · split at loaded
    · obtain ⟨_, rfl⟩ := Prod.mk.inj (Except.ok.inj loaded)
      exact .inl member
    · simp only [bind_ok_iff, pure_ok_iff, Prod.exists, Prod.mk.injEq] at loaded
      obtain ⟨authority, signers', loads, rfl, rfl⟩ := loaded
      rcases loadRelaySigner_members loads entry member with kept | ⟨names, same⟩
      · exact .inl kept
      · rw [same]
        exact .inr ⟨names, _, rfl⟩

/-- What the loop over `--relay-signer` adds, and that it leaves nothing out. -/
structure LoadsRelaySigners (client : Client P) (execute : ExecuteAccounts P)
    (requiredSigners : List P.Address) (sources : List P.SignerSource)
    (before after : List (P.Address × P.LocalSigner)) : Prop where
  added : ∀ entry ∈ after, entry ∈ before ∨ Named entry ∧ entry.1 ∈ requiredSigners ∧
    (execute.isExecutorSigner entry.1 || execute.isRequiredRelaySigner entry.1) = true ∧
    ∃ source ∈ sources, ∃ signer, client.loadSigner source "relay signer" false = .ok signer ∧
      signer.tryPubkey = .ok entry.1
  keeps : before ⊆ after
  covers : ∀ source ∈ sources, ∀ signer address,
    client.loadSigner source "relay signer" false = .ok signer →
    signer.tryPubkey = .ok address → ∃ entry ∈ after, entry.1 = address

theorem loadRelaySigners_loads {execute : ExecuteAccounts P} {requiredSigners : List P.Address}
    {sources : List P.SignerSource} {before after : List (P.Address × P.LocalSigner)}
    (loaded : Submit.loadRelaySigners K client execute requiredSigners sources before =
      .ok after) :
    LoadsRelaySigners client execute requiredSigners sources before after := by
  induction sources generalizing before with
  | nil =>
      obtain rfl := Except.ok.inj loaded
      exact ⟨fun entry member => .inl member, List.Subset.refl _, fun source none => by cases none⟩
  | cons source rest ih =>
      simp only [Submit.loadRelaySigners, bind_ok_iff, ensure_ok_iff] at loaded
      obtain ⟨signer, loads, address, names, _, role, later⟩ := loaded
      have others := ih later
      have here := Sign.addSigner_covers before address signer
      refine ⟨?_, List.Subset.trans here.1 others.keeps, ?_⟩
      · intro entry member
        rcases others.added entry member with kept | ⟨named, required, roles, other, listed, own⟩
        · rcases Sign.mem_addSigner kept with kept | added
          · exact .inl kept
          · rw [added]
            exact .inr ⟨names, role.1, role.2, source, List.mem_cons_self, signer, loads, names⟩
        · exact .inr ⟨named, required, roles, other, List.mem_cons_of_mem _ listed, own⟩
      · intro other listed signer' address' loads' names'
        rcases List.mem_cons.mp listed with same | listed
        · rw [same, loads] at loads'
          obtain rfl := Except.ok.inj loads'
          obtain rfl := Except.ok.inj (names.symm.trans names')
          obtain ⟨entry, member, same⟩ := here.2
          exact ⟨entry, others.keeps member, same⟩
        · exact others.covers other listed signer' address' loads' names'

/-- The local signers of a run, by the option that loaded them. -/
theorem loadSigners_members {command : SubmitCommand P} {execute : ExecuteAccounts P}
    {requiredSigners : List P.Address} {relaySignatures : List (P.Address × P.Signature)}
    {loaded : LoadedSigners P}
    (found : Submit.loadSigners K command client execute requiredSigners relaySignatures =
      .ok loaded) :
    (∀ entry ∈ loaded.signers, Named entry ∧ (loaded.Signs entry.1 ∨
      entry.1 ∈ requiredSigners ∧
        (execute.isExecutorSigner entry.1 || execute.isRequiredRelaySigner entry.1) = true ∧
        RelaySignerGiven command client entry.1)) ∧
    ∀ address, RelaySignerGiven command client address →
      ∃ entry ∈ loaded.signers, entry.1 = address := by
  simp only [Submit.loadSigners, bind_ok_iff, pure_ok_iff, Prod.exists] at found
  obtain ⟨source, _, feePayer, first, payer, durableNonce, second, nonce, all, relays, _, _,
    rfl⟩ := found
  have loads := loadRelaySigners_loads relays
  constructor
  · intro entry member
    rcases loads.added entry member with kept | ⟨named, required, role, given⟩
    · rcases loadDurableNonce_members nonce entry kept with kept | ⟨named, authority⟩
      · rcases loadRelaySigner_members payer entry kept with none | ⟨named, same⟩
        · cases none
        · exact ⟨named, .inl (.inl same)⟩
      · exact ⟨named, .inl (.inr authority)⟩
    · exact ⟨named, .inr ⟨required, role, given⟩⟩
  · intro address given
    obtain ⟨source, listed, signer, loading, names⟩ := given
    exact loads.covers source listed signer address loading names

end Loading

section Signing

variable {K : Toolkit P}

theorem fillSlots_length (transaction : P.Transaction) (placed : List (Nat × P.Signature)) :
    (fillSlots transaction placed).signatures.length = transaction.signatures.length := by
  induction placed generalizing transaction with
  | nil => rfl
  | cons entry rest ih =>
      have later := ih { transaction with signatures := transaction.signatures.set entry.1 entry.2 }
      rw [List.length_set] at later
      exact later

/-- With a slot for each of its signers, signing fails only where a signer does. -/
theorem tryPartialSign_error {transaction : P.Transaction} {messageData : List UInt8}
    {signers : List P.LocalSigner} {failure : Failure}
    (slots : ∀ signer ∈ signers, ∃ address, signer.tryPubkey = .ok address ∧
      address ∈ transaction.message.accountKeys.take transaction.signatures.length)
    (failed : tryPartialSign K transaction messageData signers = .error failure) :
    ∃ signer ∈ signers, signer.trySignMessage messageData = .error failure := by
  induction signers generalizing transaction with
  | nil => cases failed
  | cons signer rest ih =>
      obtain ⟨address, named, member⟩ := slots signer List.mem_cons_self
      obtain ⟨index, found⟩ := signerIndex_exists member
      have slot : okOr (signerIndex transaction address)
          [s!"{K.display address} is not a relay transaction signer"] = .ok index :=
        okOr_ok_iff.mpr found
      rw [tryPartialSign, bind_of_ok named, bind_of_ok slot] at failed
      cases signed : signer.trySignMessage messageData with
      | error reason =>
          rw [bind_error signed] at failed
          exact ⟨signer, List.mem_cons_self, signed.trans (congrArg _ (Except.error.inj failed))⟩
      | ok signature =>
          rw [bind_of_ok signed] at failed
          obtain ⟨other, listed, fails⟩ := ih (fun other listed => by
            rw [List.length_set]
            exact slots other (List.mem_cons_of_mem _ listed)) failed
          exact ⟨other, List.mem_cons_of_mem _ listed, fails⟩

end Signing

section Building

variable {K : Toolkit P} {command : SubmitCommand P} {client : Client P}
  {prepared : PreparedRelay P} {relaySignatures : List (P.Address × P.Signature)}
  {loaded : LoadedSigners P} {blockhash : P.Hash}

/-- A local signer lacks its slot only as a required relay signer that already signed the
authorization message. -/
theorem Submit.Builds.mem_signerKeys_iff (transactions : K.TransactionLaws)
    (builds : Submit.Builds K command client prepared relaySignatures loaded blockhash)
    {entry : P.Address × P.LocalSigner} (member : entry ∈ prepared.signers) :
    entry.1 ∈ prepared.transaction.message.signerKeys ↔
      (prepared.execute.isRequiredRelaySigner entry.1 = true →
        SignatureGiven K command entry.1 → loaded.Signs entry.1) := by
  obtain ⟨_, _, keys⟩ := buildRelay_ok transactions builds.built
  have members := (loadSigners_members builds.loads).1
  rw [builds.signers] at members
  have given := verifyAuthoritySignatures_lookup builds.verified
  simp only [List.lookup_nil, Option.isSome_none, Bool.false_eq_true, false_or] at given
  constructor
  · intro slot role signed
    rcases (keys entry.1).mp slot with payer | nonce | listed
    · exact .inl payer
    · exact .inr nonce
    · have marked := (List.mem_filter.mp listed).2
      have unused := ((prepared.execute.isRequiredRelaySigner_iff entry.1).mp role).2
      rw [Bool.or_eq_true, Bool.and_eq_true, Option.isNone_iff_eq_none] at marked
      rcases marked with uses | both
      · exact absurd uses unused
      · have present := (given entry.1).mpr signed
        rw [both.2] at present
        cases present
  · intro separate
    apply (keys entry.1).mpr
    rcases (members entry member).2 with signs | ⟨required, role, _⟩
    · exact signs.imp_right Or.inl
    · by_cases signed : SignatureGiven K command entry.1 ∧
          prepared.execute.isRequiredRelaySigner entry.1 = true
      · exact (separate signed.2 signed.1).imp_right Or.inl
      · refine .inr (.inr (List.mem_filter.mpr ⟨required, ?_⟩))
        rw [Bool.or_eq_true] at role ⊢
        rcases role with uses | relays
        · exact .inl uses
        · refine .inr (Bool.and_eq_true_iff.mpr ⟨relays, ?_⟩)
          rw [Option.isNone_iff_eq_none, ← Option.not_isSome_iff_eq_none]
          intro present
          exact signed ⟨(given entry.1).mp present, relays⟩

/-- With every local signer among the signers of the relay transaction, signing it finds all
the slots. -/
theorem Submit.Builds.slotsReady (transactions : K.TransactionLaws)
    (builds : Submit.Builds K command client prepared relaySignatures loaded blockhash)
    (slots : ∀ entry ∈ prepared.signers,
      entry.1 ∈ prepared.transaction.message.signerKeys) : SlotsReady K prepared := by
  obtain ⟨unsent, _, _⟩ := buildRelay_ok transactions builds.built
  have members := (loadSigners_members builds.loads).1
  rw [builds.signers] at members
  have count : prepared.transaction.signatures.length =
      prepared.transaction.message.header.numRequiredSignatures.toNat := by
    rw [unsent]
    exact List.length_replicate
  refine ⟨?_, ?_⟩
  · intro entry member
    refine ⟨slots entry member, signerIndex_exists ?_⟩
    rw [count]
    exact slots entry member
  · intro failure failed
    obtain ⟨signer, listed, fails⟩ := tryPartialSign_error (fun signer listed => by
      obtain ⟨entry, among, rfl⟩ := List.mem_map.mp listed
      have member := (Submit.mem_localSigners prepared entry).mp among
      refine ⟨entry.1, (members entry member).1, ?_⟩
      rw [fillSlots_length, count]
      exact slots entry member) failed
    obtain ⟨entry, among, rfl⟩ := List.mem_map.mp listed
    exact ⟨entry, (Submit.mem_localSigners prepared entry).mp among, fails⟩

end Building

namespace Reference

/-- An authorization message with a required relay signer, key 14. -/
def twice : Platform.reference.Message where
  header := ⟨2, 1, 3⟩
  config := default
  lifetimeSpecifier := default
  accountKeys := [30, 14, nonceAccount, nonceAuthority, 4, 2, 40]
  instructions := [⟨4, [3, 2, 5, 3, 6], execute.data⟩]

def twiceSignature (address : Nat) : Platform.reference.Signature :=
  some (address, Platform.serializeV1 twice)

/-- Key 14 signed the message, and is passed as a relay signer as well. -/
def twiceCommand : SubmitCommand .reference :=
  { submitCommand [] false with
    authorizationMessage := encodeText (Platform.serializeV1 twice)
    signers := [signatureEntry Toolkit.reference (30 : Nat) (twiceSignature 30),
      signatureEntry Toolkit.reference (14 : Nat) (twiceSignature 14)]
    relaySigner := [keyFile (14 : Nat)] }

def payer : Client .reference := client (keyFile (50 : Nat)) (.ok state)

def twiceMessage : Platform.reference.Message where
  header := ⟨1, 0, 5⟩
  config := limits
  lifetimeSpecifier := [9]
  accountKeys := [50, 20, 30, 61, 2, 4, 6, 14, 40]
  instructions := [⟨6, [2, 7, 1, 3, 5, 4, 8], SignerInstruction.serialize (P := .reference)
    (.submit [some (twiceSignature 30), some (twiceSignature 14)] (.v1 twice))⟩]

def twiceRelay : PreparedRelay .reference :=
  ⟨twice, execution, [((14 : Nat), twiceSignature 14), ((30 : Nat), twiceSignature 30)],
    [((50 : Nat), keypair 50), ((14 : Nat), keypair 14)], unsigned twiceMessage, []⟩

/-- As before, but key 14 signs the relay transaction alone. -/
def onceCommand : SubmitCommand .reference :=
  { twiceCommand with signers := [signatureEntry Toolkit.reference (30 : Nat) (twiceSignature 30)] }

def onceMessage : Platform.reference.Message where
  header := ⟨2, 1, 4⟩
  config := limits
  lifetimeSpecifier := [9]
  accountKeys := [50, 14, 20, 30, 61, 2, 4, 6, 40]
  instructions := [⟨7, [3, 1, 2, 4, 6, 5, 8], SignerInstruction.serialize (P := .reference)
    (.submit [some (twiceSignature 30), none] (.v1 twice))⟩]

def onceRelay : PreparedRelay .reference :=
  ⟨twice, execution, [((30 : Nat), twiceSignature 30)],
    [((50 : Nat), keypair 50), ((14 : Nat), keypair 14)], unsigned onceMessage, []⟩

theorem twice_read : Decode.readAuthorizationMessage Toolkit.reference
    (encodeText (Platform.serializeV1 twice)) = .ok twice := by
  apply Decode.readAuthorizationMessage_encode Toolkit.reference messageLaws textLaws
  · apply validate_ok
    exact ⟨by decide, by decide, by decide, by decide, by decide, by simp [twice],
      by simp [twice]⟩
  · rfl

theorem twice_executes : ExecuteAccounts.tryNew Toolkit.reference twice = .ok execution := by
  have decoded : ExecutorInstruction.tryFromBytes execute.data = .ok (.execute (.v1 message)) :=
    ExecutorInstruction.tryFromBytes_ok_iff.mpr ⟨messageWire_total _, rfl⟩
  exact @ExecuteAccounts.tryNew_of_decoded _ Toolkit.reference twice message
    ⟨4, [3, 2, 5, 3, 6], execute.data⟩ _ _ _ _ rfl rfl decoded rfl rfl

theorem once_prepared :
    Submit.prepare Toolkit.reference onceCommand payer = .ok onceRelay := by
  apply (Submit.prepare_ok_iff Toolkit.reference).mpr
  refine ⟨[], ⟨(50 : Nat), none, _⟩, [9], ⟨twice_read, twice_executes, ?_, ⟨[], rfl, rfl⟩, rfl,
    rfl, ?_, rfl, ?_⟩, rfl⟩
  · decide +kernel
  · decide +kernel
  · decide +kernel

end Reference

/-- Every local signer has its slot exactly when no `--relay-signer` is a required relay signer
that already signed the authorization message, unless it signs for another reason. -/
theorem local_signers_have_slots_iff (K : Toolkit P) (transactions : K.TransactionLaws)
    (command : SubmitCommand P) (client : Client P) (prepared : PreparedRelay P)
    (relaySignatures : List (P.Address × P.Signature)) (loaded : LoadedSigners P)
    (blockhash : P.Hash)
    (builds : Submit.Builds K command client prepared relaySignatures loaded blockhash) :
    SlotsReady K prepared ↔ ∀ address, RelaySignerGiven command client address →
      prepared.execute.isRequiredRelaySigner address = true →
      SignatureGiven K command address → loaded.Signs address := by
  obtain ⟨members, covers⟩ := loadSigners_members builds.loads
  rw [builds.signers] at members covers
  constructor
  · intro ready address relay
    obtain ⟨entry, member, rfl⟩ := covers address relay
    exact (builds.mem_signerKeys_iff transactions member).mp (ready.slots entry member).1
  · intro separate
    apply builds.slotsReady transactions
    intro entry member
    apply (builds.mem_signerKeys_iff transactions member).mpr
    intro role signed
    rcases (members entry member).2 with signs | ⟨_, _, relay⟩
    · exact signs
    · exact separate entry.1 relay role signed

/-- A relay signer that did not sign the authorization message has its slot. -/
theorem local_signers_have_slots_iff_reference :
    RelaySignerGiven Reference.onceCommand Reference.payer (14 : Nat) ∧
      Reference.onceRelay.execute.isRequiredRelaySigner (14 : Nat) = true ∧
      SlotsReady Toolkit.reference Reference.onceRelay := by
  obtain ⟨relaySignatures, loaded, blockhash, prepares⟩ :=
    (Submit.prepare_ok_iff Toolkit.reference).mp Reference.once_prepared
  refine ⟨⟨Reference.keyFile (14 : Nat), List.mem_singleton.mpr rfl,
    Reference.keypair 14, rfl, rfl⟩, rfl, ?_⟩
  apply (local_signers_have_slots_iff Toolkit.reference Reference.transactionLaws _ _ _ _ _ _
    prepares.toBuilds).mpr
  intro address given _ signed
  obtain ⟨source, listed, signer, loads, named⟩ := given
  obtain rfl := List.mem_singleton.mp listed
  have loaded14 : Reference.payer.loadSigner (Reference.keyFile (14 : Nat)) "relay signer" false =
      .ok (Reference.keypair 14) := rfl
  obtain rfl := Except.ok.inj (loaded14.symm.trans loads)
  obtain ⟨entry, among, signature, parsed⟩ := signed
  obtain rfl := List.mem_singleton.mp among
  have entry30 := parseSignatureEntry_entry Reference.textLaws (30 : Nat)
    (Reference.twiceSignature 30) "authority"
  obtain ⟨rfl, -⟩ := Prod.mk.inj (Except.ok.inj (entry30.symm.trans parsed))
  exact absurd (Except.ok.inj named : (14 : Nat) = 30) (by decide)

namespace Reference

theorem twice_prepared :
    Submit.prepare Toolkit.reference twiceCommand payer = .ok twiceRelay := by
  apply (Submit.prepare_ok_iff Toolkit.reference).mpr
  refine ⟨[], ⟨(50 : Nat), none, _⟩, [9], ⟨twice_read, twice_executes, ?_, ⟨[], rfl, rfl⟩, rfl,
    rfl, ?_, rfl, ?_⟩, rfl⟩
  · decide +kernel
  · decide +kernel
  · decide +kernel

/-- Every check passes, and then signing fails for want of a slot. -/
theorem twice_has_no_slot :
    Submit.prepare Toolkit.reference twiceCommand payer = .ok twiceRelay ∧
      ((14 : Nat), keypair 14) ∈ twiceRelay.signers ∧
      (14 : Nat) ∉ twiceRelay.transaction.message.signerKeys ∧
      Submit.relay Toolkit.reference twiceCommand payer = .error
        ["failed to sign relay transaction",
          s!"{Toolkit.reference.display (14 : Nat)} is not a relay transaction signer"] := by
  refine ⟨twice_prepared, by simp [twiceRelay], by decide, ?_⟩
  rw [Submit.relay]
  refine (bind_of_ok twice_prepared).trans ?_
  rfl

end Reference

end ProgrammaticSigner
