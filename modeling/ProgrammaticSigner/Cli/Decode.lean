import ProgrammaticSigner.Cli.Toolkit

set_option autoImplicit false

/- Reading messages off the command line. -/
namespace ProgrammaticSigner

open Outcome

namespace Decode

variable {P : Platform} (K : Toolkit P)

/-- Decode and sanitize a base64-encoded message. -/
def readMessage (input : Text) (name : String) : Except Failure P.VersionedMessage := do
  let bytes ← context s!"invalid base64 {name}" (K.decodeBase64 (trim input))
  let message ← context s!"invalid serialized {name}"
    (okOr (P.messageWire.deserializeExact bytes) K.malformed)
  context s!"invalid {name}"
    ((P.sanitize message).mapError fun reason => [K.describeMessage reason])
  return message

/-- Check that a sanitized execution message is one the executor can invoke. -/
def validateExecutionMessage (message : P.VersionedMessage) : Except Failure P.Message :=
  match message with
  | .v1 message => do
      ensure (message.config = default)
        ["execution message must not set transaction config fields, which only apply to " ++
          "top-level transactions. Pass --strip-transaction-config to remove them"]
      return message
  | _ => .error ["the executor supports only v1 execution messages"]

/-- Clear the config of a v1 message. -/
def stripConfig (message : P.VersionedMessage) : P.VersionedMessage :=
  match message with
  | .v1 message => .v1 { message with config := default }
  | other => other

/-- Read an execution message the executor can invoke, rejecting transaction config
fields or clearing them. -/
def readExecutionMessage (input : Text) (stripTransactionConfig : Bool) :
    Except Failure P.Message := do
  let message ← readMessage K input "execution message"
  validateExecutionMessage (if stripTransactionConfig then stripConfig message else message)

/-- Read an authorization message the signer program accepts. -/
def readAuthorizationMessage (input : Text) : Except Failure P.Message := do
  match ← readMessage K input "authorization message" with
  | .v1 message => do
      ensure (message.config = default)
        ["authorization message must not set transaction config fields"]
      return message
  | _ => .error ["the signer program supports only v1 authorization messages"]

theorem readMessage_ok_iff {input : Text} {name : String} {message : P.VersionedMessage} :
    readMessage K input name = .ok message ↔
      ∃ bytes, K.decodeBase64 (trim input) = .ok bytes ∧
        P.messageWire.deserializeExact bytes = some message ∧ P.sanitize message = .ok () := by
  simp only [readMessage, bind_ok_iff, context_ok_iff, okOr_ok_iff, mapError_ok_iff, pure_ok_iff]
  constructor
  · rintro ⟨bytes, decoded, found, read, checked, sane, same⟩
    subst same
    exact ⟨bytes, decoded, read, sane⟩
  · rintro ⟨bytes, decoded, read, sane⟩
    exact ⟨bytes, decoded, message, read, (), sane, rfl⟩

/-- What is written out in base64 reads back. -/
theorem readMessage_encode (text : K.TextLaws) {name : String} {message : P.VersionedMessage}
    (fits : P.messageWire.Fits message) (sane : P.sanitize message = .ok ()) :
    readMessage K (K.encodeBase64 (Platform.serialize message)) name = .ok message := by
  refine (readMessage_ok_iff K).mpr ⟨Platform.serialize message, ?_, ?_, sane⟩
  · rw [trim_eq (text.base64_plain _)]
    exact text.base64 _
  · exact P.messageWire.deserializeExact_encode fits

theorem validateExecutionMessage_ok_iff {versioned : P.VersionedMessage} {message : P.Message} :
    validateExecutionMessage versioned = .ok message ↔
      versioned = .v1 message ∧ message.config = default := by
  cases versioned with
  | v1 found =>
      simp only [validateExecutionMessage, bind_unit_ok_iff, ensure_ok_iff, pure_ok_iff,
        VersionedMessage.v1.injEq]
      constructor
      · rintro ⟨config, same⟩
        exact ⟨same, same ▸ config⟩
      · rintro ⟨same, config⟩
        exact ⟨same ▸ config, same⟩
  | legacy bytes => simp [validateExecutionMessage]
  | v0 bytes => simp [validateExecutionMessage]

/-- An execution message that was read is valid and has no config. -/
theorem readExecutionMessage_ok (messages : P.MessageLaws) {input : Text} {strip : Bool}
    {message : P.Message} (read : readExecutionMessage K input strip = .ok message) :
    P.validate message = .ok () ∧ message.config = default := by
  obtain ⟨versioned, found, checked⟩ := bind_ok_iff.mp read
  obtain ⟨bytes, -, -, sane⟩ := (readMessage_ok_iff K).mp found
  obtain ⟨same, config⟩ := validateExecutionMessage_ok_iff.mp checked
  refine ⟨?_, config⟩
  cases strip with
  | false =>
      have same : versioned = .v1 message := same
      rw [same] at sane
      exact (messages.sanitize_iff message).mp sane
  | true =>
      cases versioned with
      | v1 original =>
          have stripped := VersionedMessage.v1.inj same
          have valid := (messages.sanitize_iff original).mp sane
          have reset := messages.resets original original.lifetimeSpecifier valid
          rw [← stripped]
          exact reset
      | legacy bytes => cases same
      | v0 bytes => cases same

theorem readAuthorizationMessage_ok (messages : P.MessageLaws) {input : Text}
    {message : P.Message} (read : readAuthorizationMessage K input = .ok message) :
    P.validate message = .ok () ∧ message.config = default := by
  obtain ⟨versioned, found, checked⟩ := bind_ok_iff.mp read
  obtain ⟨bytes, -, -, sane⟩ := (readMessage_ok_iff K).mp found
  cases versioned with
  | v1 original =>
      simp only [bind_ok_iff, ensure_ok_iff, pure_ok_iff] at checked
      obtain ⟨-, config, same⟩ := checked
      rw [← same]
      exact ⟨(messages.sanitize_iff original).mp sane, config⟩
  | legacy bytes => cases checked
  | v0 bytes => cases checked

/-- An authorization message that the client wrote reads back. -/
theorem readAuthorizationMessage_encode (messages : P.MessageLaws) (text : K.TextLaws)
    {message : P.Message} (valid : P.validate message = .ok ())
    (config : message.config = default) :
    readAuthorizationMessage K (K.encodeBase64 (Platform.serializeV1 message)) = .ok message := by
  have read := @readMessage_encode P K text "authorization message" _
    (messages.serializes message valid) ((messages.sanitize_iff message).mpr valid)
  rw [readAuthorizationMessage, Platform.serializeV1, bind_of_ok read]
  simp only [ensure, if_pos config]
  rfl

end Decode

end ProgrammaticSigner
