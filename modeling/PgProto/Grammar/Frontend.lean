import PgProto.Codec.Messages
import PgProto.Lib.Table

/-!
# Frontend — the generated `frontend` grammar

The `frontend` role of `src/grammar.rs`: the phases of the client side of a session and the table
that the `protocol!` macro emits for it.  Internal messages are the ones the client sends,
external messages the ones it receives.  `BeginExtended` and `Reset` have no wire message: the
client selects them by itself.

All patterns but two look at the variant of a message only.  The two which end a reset also look at
the transaction status, so what the table sees of a server message is a `BackendPattern`.
-/

namespace PgProto

/-- What the patterns of the grammars see of a server message. -/
structure BackendPattern where
  variant : BackendVariant
  status : Option TransactionStatus
  deriving DecidableEq, Repr

def BackendMessage.pattern : BackendMessage → BackendPattern
  | .readyForQuery status => ⟨.readyForQuery, some status⟩
  | message => ⟨message.variant, none⟩

namespace Frontend

open Lib

/-! ## Phases and events -/

inductive RuntimeState
  | ready
  | functionCalling
  | simple
  | building
  | boundBuilding
  | awaitingReady
  | copyIn
  | copyOut
  | copyBoth
  | copyBothClientDone
  | copyBothServerDone
  | draining
  | resetting
  | resetComplete
  | terminated
  deriving DecidableEq, Repr

inductive Event
  | query
  | beginExtended
  | functionCall
  | reset
  | terminate
  | functionResponse
  | error
  | «continue»
  | copyIn
  | copyOut
  | copyBoth
  | ready
  | parse
  | describe
  | bind
  | close
  | flush
  | sync
  | execute
  | copyData
  | copyDone
  | copyFail
  | sendCopyData
  | receiveCopyData
  | sendCopyDone
  | receiveCopyDone
  | discardComplete
  | readyClean
  | readyDirty
  deriving DecidableEq, Repr

/-! ## The transition table -/

/-- An edge the client selects by sending one of `variants`. -/
def sends (source : RuntimeState) (event : Event) (target : RuntimeState)
    (variants : List FrontendVariant) : Edge RuntimeState Event FrontendVariant BackendPattern :=
  { source := source
    event := event
    target := target
    guard := .internal fun v => variants.contains v }

/-- An edge the client selects without a message. -/
def moves (source : RuntimeState) (event : Event) (target : RuntimeState) :
    Edge RuntimeState Event FrontendVariant BackendPattern :=
  { source := source
    event := event
    target := target
    guard := .silent .internal }

/-- An edge the server selects by sending one of `variants`. -/
def receives (source : RuntimeState) (event : Event) (target : RuntimeState)
    (variants : List BackendVariant) : Edge RuntimeState Event FrontendVariant BackendPattern :=
  { source := source
    event := event
    target := target
    guard := .external fun p => variants.contains p.variant }

/-- An edge the server selects by a `ReadyForQuery` with one of `statuses`. -/
def receivesReady (source : RuntimeState) (event : Event) (target : RuntimeState)
    (statuses : List TransactionStatus) : Edge RuntimeState Event FrontendVariant BackendPattern :=
  { source := source
    event := event
    target := target
    guard := .external fun p =>
      decide (p.variant = .readyForQuery) && p.status.any fun status => statuses.contains status }

/-- `TRANSITIONS` of the generated module, in declaration order. -/
def transitions : Table RuntimeState Event FrontendVariant BackendPattern :=
  [ sends .ready .query .simple [.query],
    moves .ready .beginExtended .building,
    sends .ready .functionCall .functionCalling [.functionCall],
    moves .ready .reset .resetting,
    sends .ready .terminate .terminated [.terminate],
    receives .functionCalling .functionResponse .awaitingReady [.functionCallResponse],
    receives .functionCalling .error .draining [.errorResponse],
    receives .simple .«continue» .simple
      [.rowDescription, .dataRow, .commandComplete, .emptyQueryResponse],
    receives .simple .copyIn .copyIn [.copyInResponse],
    receives .simple .copyOut .copyOut [.copyOutResponse],
    receives .simple .copyBoth .copyBoth [.copyBothResponse],
    receives .simple .ready .ready [.readyForQuery],
    receives .simple .error .draining [.errorResponse],
    sends .building .parse .building [.parse],
    sends .building .describe .building [.describe],
    sends .building .bind .boundBuilding [.bind],
    sends .building .close .building [.close],
    sends .building .flush .building [.flush],
    sends .building .sync .awaitingReady [.sync],
    sends .boundBuilding .parse .boundBuilding [.parse],
    sends .boundBuilding .describe .boundBuilding [.describe],
    sends .boundBuilding .bind .boundBuilding [.bind],
    sends .boundBuilding .execute .boundBuilding [.execute],
    sends .boundBuilding .close .boundBuilding [.close],
    sends .boundBuilding .flush .boundBuilding [.flush],
    sends .boundBuilding .sync .awaitingReady [.sync],
    receives .awaitingReady .«continue» .awaitingReady
      [.parseComplete, .bindComplete, .closeComplete, .rowDescription, .noData,
       .parameterDescription, .dataRow, .commandComplete, .portalSuspended, .emptyQueryResponse],
    receives .awaitingReady .ready .ready [.readyForQuery],
    receives .awaitingReady .error .draining [.errorResponse],
    sends .copyIn .copyData .copyIn [.copyData],
    sends .copyIn .copyDone .awaitingReady [.copyDone],
    sends .copyIn .copyFail .awaitingReady [.copyFail],
    receives .copyIn .error .draining [.errorResponse],
    receives .copyOut .copyData .copyOut [.copyData],
    receives .copyOut .copyDone .awaitingReady [.copyDone],
    receives .copyOut .error .draining [.errorResponse],
    sends .copyBoth .sendCopyData .copyBoth [.copyData],
    receives .copyBoth .receiveCopyData .copyBoth [.copyData],
    sends .copyBoth .sendCopyDone .copyBothClientDone [.copyDone],
    receives .copyBoth .receiveCopyDone .copyBothServerDone [.copyDone],
    receives .copyBoth .error .draining [.errorResponse],
    receives .copyBothClientDone .receiveCopyData .copyBothClientDone [.copyData],
    receives .copyBothClientDone .receiveCopyDone .awaitingReady [.copyDone],
    receives .copyBothClientDone .error .draining [.errorResponse],
    sends .copyBothServerDone .sendCopyData .copyBothServerDone [.copyData],
    sends .copyBothServerDone .sendCopyDone .awaitingReady [.copyDone],
    receives .draining .«continue» .draining
      [.rowDescription, .dataRow, .commandComplete, .emptyQueryResponse, .parseComplete,
       .bindComplete, .closeComplete, .noData, .parameterDescription, .portalSuspended],
    receives .draining .ready .ready [.readyForQuery],
    receives .resetting .«continue» .resetting [.rowDescription, .dataRow, .emptyQueryResponse],
    receives .resetting .discardComplete .resetComplete [.commandComplete],
    receives .resetting .error .draining [.errorResponse],
    receives .resetComplete .«continue» .resetComplete
      [.rowDescription, .dataRow, .commandComplete, .emptyQueryResponse],
    receivesReady .resetComplete .readyClean .ready [.idle],
    receivesReady .resetComplete .readyDirty .ready [.inTransaction, .failedTransaction],
    receives .resetComplete .error .draining [.errorResponse] ]

/-! ## Generated functions -/

def projectExternal (state : RuntimeState) (message : BackendMessage) : Option Event :=
  transitions.projectExternal state message.pattern

end Frontend
end PgProto
