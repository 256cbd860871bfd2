import PgProto.Codec.Messages
import PgProto.Lib.Table

/-!
# Authentication — the generated `authentication` grammar

The `authentication` role of `src/grammar.rs`: what a client goes through from the startup packet
to the first ReadyForQuery.  Internal messages are the ones the client sends, external messages the
ones it receives; `Verified` has no wire message.

The patterns of this grammar look into the authentication request, so the table is over whole
server messages.
-/

namespace PgProto

/-- The forms of an authentication request. -/
inductive AuthenticationVariant
  | ok
  | kerberosV5
  | cleartextPassword
  | md5Password
  | gss
  | gssContinue
  | sspi
  | sasl
  | saslContinue
  | saslFinal
  deriving DecidableEq, Repr

def Authentication.variant : Authentication → AuthenticationVariant
  | .ok => .ok
  | .kerberosV5 => .kerberosV5
  | .cleartextPassword => .cleartextPassword
  | .md5Password _ => .md5Password
  | .gss => .gss
  | .gssContinue _ => .gssContinue
  | .sspi => .sspi
  | .sasl _ => .sasl
  | .saslContinue _ => .saslContinue
  | .saslFinal _ => .saslFinal

namespace AuthGrammar

open Lib

/-! ## Phases and events -/

inductive RuntimeState
  | auth
  | passwordResponse
  | tokenResponse
  | tokenChallenge
  | saslInitial
  | sasl
  | saslChallenge
  | saslFinal
  | awaitingAuthOk
  | awaitingStartupReady
  | ready
  | terminated
  deriving DecidableEq, Repr

inductive Event
  | negotiate
  | ok
  | cleartext
  | md5
  | sasl
  | gss
  | sspi
  | kerberosV5
  | error
  | password
  | response
  | «continue»
  | initial
  | final
  | verified
  | ready
  deriving DecidableEq, Repr

/-! ## The transition table -/

/-- An edge the client selects by sending a password response. -/
def responds (source : RuntimeState) (event : Event) (target : RuntimeState) :
    Edge RuntimeState Event FrontendVariant BackendMessage :=
  { source := source
    event := event
    target := target
    guard := .internal fun v => decide (v = .passwordResponse) }

/-- An edge the client selects without a message. -/
def moves (source : RuntimeState) (event : Event) (target : RuntimeState) :
    Edge RuntimeState Event FrontendVariant BackendMessage :=
  { source := source
    event := event
    target := target
    guard := .silent .internal }

/-- An edge the server selects by an authentication request of the given form. -/
def requests (source : RuntimeState) (event : Event) (target : RuntimeState)
    (form : AuthenticationVariant) : Edge RuntimeState Event FrontendVariant BackendMessage :=
  { source := source
    event := event
    target := target
    guard := .external fun message =>
      match message with
      | .authentication request => decide (request.variant = form)
      | _ => false }

/-- An edge the server selects by another message. -/
def receives (source : RuntimeState) (event : Event) (target : RuntimeState)
    (variant : BackendVariant) : Edge RuntimeState Event FrontendVariant BackendMessage :=
  { source := source
    event := event
    target := target
    guard := .external fun message => decide (message.variant = variant) }

/-- `TRANSITIONS` of the generated module, in declaration order. -/
def transitions : Table RuntimeState Event FrontendVariant BackendMessage :=
  [ receives .auth .negotiate .auth .negotiateProtocolVersion,
    requests .auth .ok .awaitingStartupReady .ok,
    requests .auth .cleartext .passwordResponse .cleartextPassword,
    requests .auth .md5 .passwordResponse .md5Password,
    requests .auth .sasl .saslInitial .sasl,
    requests .auth .gss .tokenResponse .gss,
    requests .auth .sspi .tokenResponse .sspi,
    requests .auth .kerberosV5 .tokenResponse .kerberosV5,
    receives .auth .error .terminated .errorResponse,
    responds .passwordResponse .password .awaitingAuthOk,
    responds .tokenResponse .response .tokenChallenge,
    requests .tokenChallenge .«continue» .tokenResponse .gssContinue,
    requests .tokenChallenge .ok .awaitingStartupReady .ok,
    receives .tokenChallenge .error .terminated .errorResponse,
    responds .saslInitial .initial .sasl,
    requests .sasl .«continue» .saslChallenge .saslContinue,
    requests .sasl .final .saslFinal .saslFinal,
    receives .sasl .error .terminated .errorResponse,
    responds .saslChallenge .response .sasl,
    moves .saslFinal .verified .awaitingAuthOk,
    requests .awaitingAuthOk .ok .awaitingStartupReady .ok,
    receives .awaitingAuthOk .error .terminated .errorResponse,
    receives .awaitingStartupReady .ready .ready .readyForQuery ]

/-! ## Generated functions -/

def projectExternal (state : RuntimeState) (message : BackendMessage) : Option Event :=
  transitions.projectExternal state message

end AuthGrammar
end PgProto
