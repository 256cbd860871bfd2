import PgProto.Codec.Messages
import PgProto.Lib.Table

/-!
# Backend — the generated `backend` grammar

The `backend` role of `src/grammar.rs`: the phases of the server side of a session, the table that
the `protocol!` macro emits for it, and the projections `project_internal`, `project_external` and
the lookup `transition` which the pipeline ledger calls.  Internal messages are the ones the
server sends, external messages the ones it receives.

The patterns of this grammar look at the message variant only, so the table is over variants.
-/

namespace PgProto
namespace Backend

open Lib

/-! ## Phases and events -/

inductive RuntimeState
  | ready
  | simple
  | simpleError
  | building
  | parseResponse
  | bindResponse
  | describeResponse
  | executeResponse
  | closeResponse
  | extendedError
  | syncResponse
  | functionResponse
  | functionReady
  | simpleCopyIn
  | simpleCopyInDone
  | simpleCopyInFailed
  | simpleCopyOut
  | simpleCopyOutDone
  | simpleCopyReady
  | extendedCopyIn
  | extendedCopyInDone
  | extendedCopyInFailed
  | extendedCopyOut
  | extendedCopyOutDone
  | simpleCopyBoth
  | simpleCopyBothClientDone
  | simpleCopyBothServerDone
  | simpleCopyBothDone
  | simpleCopyBothFailed
  | extendedCopyBoth
  | extendedCopyBothClientDone
  | extendedCopyBothServerDone
  | extendedCopyBothDone
  | extendedCopyBothFailed
  | terminated
  deriving DecidableEq, Repr

instance : Fintype RuntimeState :=
  Fintype.ofList
    [.ready, .simple, .simpleError, .building, .parseResponse, .bindResponse,
     .describeResponse, .executeResponse, .closeResponse, .extendedError, .syncResponse,
     .functionResponse, .functionReady, .simpleCopyIn, .simpleCopyInDone,
     .simpleCopyInFailed, .simpleCopyOut, .simpleCopyOutDone, .simpleCopyReady,
     .extendedCopyIn, .extendedCopyInDone, .extendedCopyInFailed, .extendedCopyOut,
     .extendedCopyOutDone, .simpleCopyBoth, .simpleCopyBothClientDone,
     .simpleCopyBothServerDone, .simpleCopyBothDone, .simpleCopyBothFailed,
     .extendedCopyBoth, .extendedCopyBothClientDone, .extendedCopyBothServerDone,
     .extendedCopyBothDone, .extendedCopyBothFailed, .terminated]
    (by intro s; cases s <;> decide)

inductive Event
  | query
  | parse
  | bind
  | describe
  | execute
  | close
  | functionCall
  | terminate
  | «continue»
  | copyIn
  | copyOut
  | copyBoth
  | ready
  | error
  | flush
  | sync
  | complete
  | parameterDescription
  | rowDescription
  | noData
  | commandComplete
  | portalSuspended
  | discard
  | result
  | data
  | done
  | fail
  | sendData
  | receiveData
  | sendDone
  | receiveDone
  deriving DecidableEq, Repr

/-! ## The transition table -/

/-- An edge the server selects by sending one of `variants`. -/
def sends (source : RuntimeState) (event : Event) (target : RuntimeState)
    (variants : List BackendVariant) : Edge RuntimeState Event BackendVariant FrontendVariant :=
  { source := source
    event := event
    target := target
    guard := .internal fun v => variants.contains v }

/-- An edge the client selects by sending one of `variants`. -/
def receives (source : RuntimeState) (event : Event) (target : RuntimeState)
    (variants : List FrontendVariant) : Edge RuntimeState Event BackendVariant FrontendVariant :=
  { source := source
    event := event
    target := target
    guard := .external fun v => variants.contains v }

/-- `TRANSITIONS` of the generated module, in declaration order. -/
def transitions : Table RuntimeState Event BackendVariant FrontendVariant :=
  [ receives .ready .query .simple [.query],
    receives .ready .parse .parseResponse [.parse],
    receives .ready .bind .bindResponse [.bind],
    receives .ready .describe .describeResponse [.describe],
    receives .ready .execute .executeResponse [.execute],
    receives .ready .close .closeResponse [.close],
    receives .ready .functionCall .functionResponse [.functionCall],
    receives .ready .terminate .terminated [.terminate],
    sends .simple .«continue» .simple
      [.rowDescription, .dataRow, .commandComplete, .emptyQueryResponse],
    sends .simple .copyIn .simpleCopyIn [.copyInResponse],
    sends .simple .copyOut .simpleCopyOut [.copyOutResponse],
    sends .simple .copyBoth .simpleCopyBoth [.copyBothResponse],
    sends .simple .ready .ready [.readyForQuery],
    sends .simple .error .simpleError [.errorResponse],
    sends .simpleError .ready .ready [.readyForQuery],
    receives .building .parse .parseResponse [.parse],
    receives .building .bind .bindResponse [.bind],
    receives .building .describe .describeResponse [.describe],
    receives .building .execute .executeResponse [.execute],
    receives .building .close .closeResponse [.close],
    receives .building .flush .building [.flush],
    receives .building .sync .syncResponse [.sync],
    sends .parseResponse .complete .building [.parseComplete],
    sends .parseResponse .error .extendedError [.errorResponse],
    sends .bindResponse .complete .building [.bindComplete],
    sends .bindResponse .error .extendedError [.errorResponse],
    sends .describeResponse .parameterDescription .describeResponse [.parameterDescription],
    sends .describeResponse .rowDescription .building [.rowDescription],
    sends .describeResponse .noData .building [.noData],
    sends .describeResponse .error .extendedError [.errorResponse],
    sends .executeResponse .«continue» .executeResponse
      [.rowDescription, .dataRow, .emptyQueryResponse],
    sends .executeResponse .copyIn .extendedCopyIn [.copyInResponse],
    sends .executeResponse .copyOut .extendedCopyOut [.copyOutResponse],
    sends .executeResponse .copyBoth .extendedCopyBoth [.copyBothResponse],
    sends .executeResponse .commandComplete .building [.commandComplete],
    sends .executeResponse .portalSuspended .building [.portalSuspended],
    sends .executeResponse .error .extendedError [.errorResponse],
    sends .closeResponse .complete .building [.closeComplete],
    sends .closeResponse .error .extendedError [.errorResponse],
    receives .extendedError .discard .extendedError
      [.parse, .bind, .describe, .execute, .close, .flush, .query, .functionCall, .terminate,
       .copyData, .copyDone, .copyFail, .passwordResponse],
    receives .extendedError .sync .syncResponse [.sync],
    sends .syncResponse .ready .ready [.readyForQuery],
    sends .functionResponse .result .functionReady [.functionCallResponse],
    sends .functionResponse .error .functionReady [.errorResponse],
    sends .functionReady .ready .ready [.readyForQuery],
    receives .simpleCopyIn .data .simpleCopyIn [.copyData],
    receives .simpleCopyIn .done .simpleCopyInDone [.copyDone],
    receives .simpleCopyIn .fail .simpleCopyInFailed [.copyFail],
    sends .simpleCopyInDone .commandComplete .simpleCopyReady [.commandComplete],
    sends .simpleCopyInDone .error .simpleCopyReady [.errorResponse],
    sends .simpleCopyInFailed .error .simpleCopyReady [.errorResponse],
    sends .simpleCopyOut .data .simpleCopyOut [.copyData],
    sends .simpleCopyOut .done .simpleCopyOutDone [.copyDone],
    sends .simpleCopyOut .error .simpleCopyReady [.errorResponse],
    sends .simpleCopyOutDone .commandComplete .simpleCopyReady [.commandComplete],
    sends .simpleCopyReady .ready .ready [.readyForQuery],
    receives .extendedCopyIn .data .extendedCopyIn [.copyData],
    receives .extendedCopyIn .done .extendedCopyInDone [.copyDone],
    receives .extendedCopyIn .fail .extendedCopyInFailed [.copyFail],
    sends .extendedCopyInDone .commandComplete .building [.commandComplete],
    sends .extendedCopyInDone .error .extendedError [.errorResponse],
    sends .extendedCopyInFailed .error .extendedError [.errorResponse],
    sends .extendedCopyOut .data .extendedCopyOut [.copyData],
    sends .extendedCopyOut .done .extendedCopyOutDone [.copyDone],
    sends .extendedCopyOut .error .extendedError [.errorResponse],
    sends .extendedCopyOutDone .commandComplete .building [.commandComplete],
    sends .simpleCopyBoth .sendData .simpleCopyBoth [.copyData],
    receives .simpleCopyBoth .receiveData .simpleCopyBoth [.copyData],
    sends .simpleCopyBoth .sendDone .simpleCopyBothServerDone [.copyDone],
    receives .simpleCopyBoth .receiveDone .simpleCopyBothClientDone [.copyDone],
    receives .simpleCopyBoth .fail .simpleCopyBothFailed [.copyFail],
    sends .simpleCopyBoth .error .simpleCopyReady [.errorResponse],
    sends .simpleCopyBothClientDone .sendData .simpleCopyBothClientDone [.copyData],
    sends .simpleCopyBothClientDone .sendDone .simpleCopyBothDone [.copyDone],
    sends .simpleCopyBothClientDone .error .simpleCopyReady [.errorResponse],
    receives .simpleCopyBothServerDone .receiveData .simpleCopyBothServerDone [.copyData],
    receives .simpleCopyBothServerDone .receiveDone .simpleCopyBothDone [.copyDone],
    receives .simpleCopyBothServerDone .fail .simpleCopyBothFailed [.copyFail],
    sends .simpleCopyBothDone .commandComplete .simpleCopyReady [.commandComplete],
    sends .simpleCopyBothFailed .error .simpleCopyReady [.errorResponse],
    sends .extendedCopyBoth .sendData .extendedCopyBoth [.copyData],
    receives .extendedCopyBoth .receiveData .extendedCopyBoth [.copyData],
    sends .extendedCopyBoth .sendDone .extendedCopyBothServerDone [.copyDone],
    receives .extendedCopyBoth .receiveDone .extendedCopyBothClientDone [.copyDone],
    receives .extendedCopyBoth .fail .extendedCopyBothFailed [.copyFail],
    sends .extendedCopyBoth .error .extendedError [.errorResponse],
    sends .extendedCopyBothClientDone .sendData .extendedCopyBothClientDone [.copyData],
    sends .extendedCopyBothClientDone .sendDone .extendedCopyBothDone [.copyDone],
    sends .extendedCopyBothClientDone .error .extendedError [.errorResponse],
    receives .extendedCopyBothServerDone .receiveData .extendedCopyBothServerDone [.copyData],
    receives .extendedCopyBothServerDone .receiveDone .extendedCopyBothDone [.copyDone],
    receives .extendedCopyBothServerDone .fail .extendedCopyBothFailed [.copyFail],
    sends .extendedCopyBothDone .commandComplete .building [.commandComplete],
    sends .extendedCopyBothFailed .error .extendedError [.errorResponse] ]

/-! ## Generated functions -/

def projectInternal (state : RuntimeState) (message : BackendVariant) : Option Event :=
  transitions.projectInternal state message

def projectExternal (state : RuntimeState) (message : FrontendVariant) : Option Event :=
  transitions.projectExternal state message

def transition (state : RuntimeState) (event : Event) :
    Option (Edge RuntimeState Event BackendVariant FrontendVariant) :=
  transitions.transition state event

/-- The wire words of this role. -/
abbrev Word := List (Signal BackendVariant FrontendVariant)

end Backend
end PgProto
