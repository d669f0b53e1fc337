import Mathlib.Data.List.Basic
import Mathlib.Data.String.Basic

/-!
# SRPC envelopes

The decoded messages of both directions, and the tests that tell receipts and
notifications from requests and replies. A field that is `undefined` is not there.
Byte-stream operations and application payloads are opaque here.
-/

namespace ServerFoundation.Srpc

/-- `SrpcPingPongType`, with the types that a later version may add. -/
inductive PingPongType where
  | unspecified
  | hello
  | helloAck
  | activated
  | ping
  | pong
  | unknown (value : ℕ)
deriving DecidableEq, Repr

/-- `BaseMessage` with the application fields of the message, of which an absent payload is
`null`. -/
structure Envelope (Payload : Type) where
  requestId : Option String
  reply : Bool
  error : Option String
  userError : Option Bool
  requestAck : Bool
  pingPong : Option (Option PingPongType)
  byteStreamOperation : Option ℕ
  fields : List (String × Option Payload)
deriving DecidableEq, Repr

namespace Envelope

variable {Payload : Type} (message : Envelope Payload)

/-- The request id, where it is there and not empty. -/
def requestId? : Option String := message.requestId.filter (· ≠ "")

/-- `isSrpcRequestAcknowledgment`. -/
def isSrpcRequestAcknowledgment : Bool :=
  message.requestAck && message.requestId?.isSome && !message.reply && message.error.isNone &&
    message.userError != some true && message.pingPong.isNone &&
    message.byteStreamOperation.isNone && message.fields.isEmpty

/-- `srpcMessageTypes`. -/
def srpcMessageTypes : List String :=
  if message.requestAck then ["requestAck"]
  else if message.pingPong.isSome then ["pingPong"]
  else if message.byteStreamOperation.isSome then ["byteStreamOperation"]
  else if message.error.isSome then ["error"]
  else if message.fields.isEmpty then [if message.reply then "reply" else "unknown"]
  else message.fields.map Prod.fst

/-- `isSrpcNotification`. -/
def isSrpcNotification : Bool :=
  if message.requestId?.isSome || message.reply || message.error.isSome ||
      message.userError.isSome || message.requestAck || message.pingPong.isSome ||
      message.byteStreamOperation.isSome then false
  else
    match message.srpcMessageTypes with
    | [type] =>
        type.endsWith "Notification" && ((message.fields.lookup type).bind id).isSome
    | _ => false

end Envelope

end ServerFoundation.Srpc
