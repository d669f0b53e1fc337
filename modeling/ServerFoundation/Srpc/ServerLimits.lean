import ServerFoundation.Srpc.Handshake

/-!
# Resource limits of an SRPC server

The options that bound the resources of a server, the check that the constructor
makes of them, and the limits in force. An option is a number of any kind until it
has been checked.
-/

namespace ServerFoundation.Srpc

/-- The resource options of `ISrpcServerOptions`. -/
structure ResourceOptions where
  maxPendingClientRequests : Option JsNumber
  maxPendingClientRequestBytes : Option JsNumber
  maxInFlightClientRequests : Option JsNumber
  maxInFlightClientRequestBytes : Option JsNumber
  maxBufferedBytes : Option JsNumber
  maxMessageBytes : Option JsNumber
  maxPendingServerRequests : Option JsNumber
  maxPendingServerRequestBytes : Option JsNumber
  lateReplyTombstoneTtlMs : Option JsNumber
  disconnectOnRequestTimeout : Option Bool

/-- The limits in force. -/
structure StreamLimits where
  maxPendingClientRequests : ℕ
  maxPendingClientRequestBytes : ℕ
  maxInFlightClientRequests : ℕ
  maxInFlightClientRequestBytes : ℕ
  maxBufferedBytes : ℕ
  maxMessageBytes : ℕ
  maxPendingServerRequests : ℕ
  maxPendingServerRequestBytes : ℕ
  lateReplyTombstoneTtlMs : ℕ
  disconnectOnRequestTimeout : Bool
deriving DecidableEq, Repr

/-- A safe integer of at least 1, as a natural number. -/
def positiveInteger? : JsNumber → Option ℕ
  | .finite value =>
      if (JsNumber.finite value).isSafeInteger ∧ 1 ≤ value then some value.num.toNat else none
  | _ => none

/-- `configuredPositiveInteger`. -/
def configuredPositiveInteger (value : Option JsNumber) (defaultValue : ℕ) : ℕ :=
  (value.bind positiveInteger?).getD defaultValue

namespace ResourceOptions

/-- No option is given. -/
def none : ResourceOptions :=
  ⟨.none, .none, .none, .none, .none, .none, .none, .none, .none, .none⟩

variable (options : ResourceOptions)

/-- The options that `validateServerResourceOptions` checks in one loop. -/
def limits : List (Option JsNumber) :=
  [options.maxPendingClientRequests, options.maxPendingClientRequestBytes,
    options.maxInFlightClientRequests, options.maxInFlightClientRequestBytes,
    options.maxBufferedBytes, options.maxMessageBytes, options.maxPendingServerRequests,
    options.maxPendingServerRequestBytes]

/-- Whether `validateServerResourceOptions` returns. -/
def Accepted : Prop :=
  (∀ value ∈ options.limits, ∀ number, value = some number → (positiveInteger? number).isSome) ∧
    ∀ number, options.lateReplyTombstoneTtlMs = some number →
      (positiveInteger? number).isSome ∧ number.le maxSafeTimerMs

/-- The limits in force, by the getters of the server. -/
def streamLimits : StreamLimits where
  maxPendingClientRequests := configuredPositiveInteger options.maxPendingClientRequests 128
  maxPendingClientRequestBytes :=
    configuredPositiveInteger options.maxPendingClientRequestBytes (8 * 1024 * 1024)
  maxInFlightClientRequests := configuredPositiveInteger options.maxInFlightClientRequests 64
  maxInFlightClientRequestBytes :=
    configuredPositiveInteger options.maxInFlightClientRequestBytes (8 * 1024 * 1024)
  maxBufferedBytes := configuredPositiveInteger options.maxBufferedBytes (8 * 1024 * 1024)
  maxMessageBytes := configuredPositiveInteger options.maxMessageBytes (8 * 1024 * 1024)
  maxPendingServerRequests := configuredPositiveInteger options.maxPendingServerRequests 128
  maxPendingServerRequestBytes :=
    configuredPositiveInteger options.maxPendingServerRequestBytes (8 * 1024 * 1024)
  lateReplyTombstoneTtlMs := configuredPositiveInteger options.lateReplyTombstoneTtlMs 60000
  disconnectOnRequestTimeout := options.disconnectOnRequestTimeout != some false

end ResourceOptions

end ServerFoundation.Srpc
