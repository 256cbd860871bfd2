import PgProto.Codec.Frames
import PgProto.Lib.SortedMap

/-!
# Demux — from backend messages to the session stream

`Demux::route` of `src/demux.rs`.  Causally independent messages are recorded below the typestate
API; the others become items of the session stream, with what the demultiplexer has gathered: the
notices of a completed command, and at readiness whether the run-time parameters still are those
of the first ReadyForQuery.

* `Demux.Accurate` — the flag `parametersChanged` says what it is meant to say;
* `Demux.Accurate.route` — routing keeps it so.
-/

namespace PgProto

open Lib

/-! ## Recorded data -/

/-- `CommandIndex(u64)`. -/
abbrev CommandIndex := Nat

structure TaggedNotice where
  command : CommandIndex
  fields : DiagnosticResponse
  deriving DecidableEq, Repr

structure Notification where
  processId : UInt32
  channel : Bytes
  payload : Bytes
  deriving DecidableEq, Repr

structure ParameterStatus where
  name : Bytes
  value : Bytes
  deriving DecidableEq, Repr

inductive AsyncEvent
  | notice (notice : TaggedNotice)
  | parameterStatus (status : ParameterStatus)
  | notification (notification : Notification)
  deriving DecidableEq, Repr

structure OrderedAsyncEvent where
  sequence : Nat
  command : CommandIndex
  event : AsyncEvent
  deriving DecidableEq, Repr

structure CancelKey where
  processId : UInt32
  secretKey : Bytes
  deriving DecidableEq, Repr

/-- A protocol-advancing message, with the evidence the demultiplexer adds to it. -/
inductive SessionItem
  | message (message : BackendMessage)
  | readyForQuery (status : TransactionStatus) (parametersChanged : Bool)
  | commandComplete (tag : Bytes) (command : CommandIndex) (notices : List TaggedNotice)
  deriving DecidableEq, Repr

def SessionItem.intoBackendMessage : SessionItem → BackendMessage
  | .message m => m
  | .readyForQuery status _ => .readyForQuery status
  | .commandComplete tag _ _ => .commandComplete tag

abbrev Parameters := SortedMap Bytes Bytes

structure Demux where
  command : CommandIndex
  pendingNotices : List TaggedNotice
  notices : List TaggedNotice
  notifications : List Notification
  parameterStatuses : List ParameterStatus
  asyncEvents : List OrderedAsyncEvent
  nextAsyncSequence : Nat
  parameters : Parameters
  startupParameters : Option Parameters
  parametersChanged : Bool
  cancelKey : Option CancelKey
  transactionStatus : Option TransactionStatus

namespace Demux

/-- `Demux::default()`. -/
def new : Demux :=
  { command := 0
    pendingNotices := []
    notices := []
    notifications := []
    parameterStatuses := []
    asyncEvents := []
    nextAsyncSequence := 0
    parameters := SortedMap.empty
    startupParameters := none
    parametersChanged := false
    cancelKey := none
    transactionStatus := none }

/-! ## Routing -/

def pushAsync (d : Demux) (event : AsyncEvent) : Demux :=
  { d with
    nextAsyncSequence := saturatingSucc d.nextAsyncSequence
    asyncEvents := d.asyncEvents ++ [⟨d.nextAsyncSequence, d.command, event⟩] }

def route (d : Demux) : BackendMessage → Option SessionItem × Demux
  | .noticeResponse fields =>
    let notice : TaggedNotice := ⟨d.command, fields⟩
    (none,
      { d with
        pendingNotices := d.pendingNotices ++ [notice]
        notices := d.notices ++ [notice] }.pushAsync (.notice notice))
  | .parameterStatus name value =>
    let parameters := d.parameters.insert name value
    let status : ParameterStatus := ⟨name, value⟩
    (none,
      { d with
        parameters := parameters
        parameterStatuses := d.parameterStatuses ++ [status]
        -- Without a baseline there is nothing to compare with yet.
        parametersChanged :=
          match d.startupParameters with
          | none => d.parametersChanged
          | some baseline => decide (parameters ≠ baseline) }.pushAsync
        (.parameterStatus status))
  | .notificationResponse processId channel payload =>
    let notification : Notification := ⟨processId, channel, payload⟩
    (none,
      { d with notifications := d.notifications ++ [notification] }.pushAsync
        (.notification notification))
  | .backendKeyData processId secretKey =>
    (some (.message (.backendKeyData processId secretKey)),
      { d with cancelKey := some ⟨processId, secretKey⟩ })
  | .readyForQuery status =>
    (some (.readyForQuery status d.parametersChanged),
      { d with
        transactionStatus := some status
        startupParameters := some (d.startupParameters.getD d.parameters) })
  | .commandComplete tag =>
    (some (.commandComplete tag d.command d.pendingNotices),
      { d with
        pendingNotices := []
        command := saturatingSucc d.command })
  | message => (some (.message message), d)

theorem intoBackendMessage_route {d d' : Demux} {message : BackendMessage} {item : SessionItem}
    (h : d.route message = (some item, d')) : item.intoBackendMessage = message := by
  cases message <;> cases h <;> rfl

/-! ## The parameter baseline -/

/-- The flag tells whether the parameters differ from the baseline. -/
def Accurate (d : Demux) : Prop :=
  d.parametersChanged =
    match d.startupParameters with
    | none => false
    | some baseline => decide (d.parameters ≠ baseline)

theorem accurate_new : new.Accurate := rfl

/-- The parameters are those of the first ReadyForQuery. -/
def AtBaseline (d : Demux) : Prop :=
  d.startupParameters = some d.parameters

theorem Accurate.route {d : Demux} (h : d.Accurate) (message : BackendMessage) :
    (d.route message).2.Accurate := by
  cases message with
  | parameterStatus name value =>
    unfold Accurate at h ⊢
    simp only [Demux.route, pushAsync]
    cases hbase : d.startupParameters with
    | none =>
      rw [hbase] at h
      exact h
    | some baseline => rfl
  | readyForQuery status =>
    unfold Accurate at h ⊢
    simp only [Demux.route]
    cases hbase : d.startupParameters with
    | none =>
      -- The first ReadyForQuery takes the present parameters for the baseline.
      rw [hbase] at h
      simpa using h
    | some baseline =>
      rw [hbase] at h
      exact h
  | _ => exact h

/-- A ReadyForQuery item without a parameter change was routed at the baseline. -/
theorem Accurate.atBaseline {d d' : Demux} (h : d.Accurate) {message : BackendMessage}
    {status : TransactionStatus} (hroute : d.route message = (some (.readyForQuery status false), d')) :
    d'.AtBaseline := by
  cases message with
  | readyForQuery s =>
    simp only [Demux.route, Prod.mk.injEq, Option.some.injEq,
      SessionItem.readyForQuery.injEq] at hroute
    obtain ⟨⟨-, hunchanged⟩, rfl⟩ := hroute
    unfold Accurate at h
    unfold AtBaseline
    cases hbase : d.startupParameters with
    | none => rfl
    | some baseline =>
      rw [hbase, hunchanged] at h
      have heq : d.parameters = baseline := by simpa using h
      rw [heq]
      rfl
  | _ => cases hroute

end Demux
end PgProto
