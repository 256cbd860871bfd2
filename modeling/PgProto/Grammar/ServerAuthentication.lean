import PgProto.Grammar.Authentication

/-!
# ServerAuthentication — the generated `server_authentication` grammar

The `server_authentication` role of `src/grammar.rs`: what a server goes through from the startup
packet to its first ReadyForQuery.  Internal messages are the ones the server sends, external
messages the ones it receives; `Begin` and `Verified` have no wire message.
-/

namespace PgProto
namespace ServerAuthGrammar

open Lib

/-! ## Phases and events -/

inductive RuntimeState
  | startup
  | auth
  | passwordResponse
  | saslInitial
  | sasl
  | saslResponse
  | tokenResponse
  | tokenPolicy
  | startupReady
  | ready
  | terminated
  deriving DecidableEq, Repr

inductive Event
  | begin
  | reject
  | negotiate
  | cleartext
  | md5
  | sasl
  | gss
  | sspi
  | kerberosV5
  | ok
  | error
  | response
  | initial
  | «continue»
  | final
  | verified
  | parameterStatus
  | backendKeyData
  | ready
  deriving DecidableEq, Repr

/-! ## The transition table -/

/-- An edge the server selects by an authentication request of the given form. -/
def requests (source : RuntimeState) (event : Event) (target : RuntimeState)
    (form : AuthenticationVariant) : Edge RuntimeState Event BackendMessage FrontendVariant :=
  { source := source
    event := event
    target := target
    guard := .internal fun message =>
      match message with
      | .authentication request => decide (request.variant = form)
      | _ => false }

/-- An edge the server selects by another message. -/
def sends (source : RuntimeState) (event : Event) (target : RuntimeState)
    (variant : BackendVariant) : Edge RuntimeState Event BackendMessage FrontendVariant :=
  { source := source
    event := event
    target := target
    guard := .internal fun message => decide (message.variant = variant) }

/-- An edge the server selects without a message. -/
def moves (source : RuntimeState) (event : Event) (target : RuntimeState) :
    Edge RuntimeState Event BackendMessage FrontendVariant :=
  { source := source
    event := event
    target := target
    guard := .silent .internal }

/-- An edge the client selects by a password response. -/
def receives (source : RuntimeState) (event : Event) (target : RuntimeState) :
    Edge RuntimeState Event BackendMessage FrontendVariant :=
  { source := source
    event := event
    target := target
    guard := .external fun v => decide (v = .passwordResponse) }

/-- `TRANSITIONS` of the generated module, in declaration order. -/
def transitions : Table RuntimeState Event BackendMessage FrontendVariant :=
  [ moves .startup .begin .auth,
    sends .startup .reject .terminated .errorResponse,
    sends .auth .negotiate .auth .negotiateProtocolVersion,
    requests .auth .cleartext .passwordResponse .cleartextPassword,
    requests .auth .md5 .passwordResponse .md5Password,
    requests .auth .sasl .saslInitial .sasl,
    requests .auth .gss .tokenResponse .gss,
    requests .auth .sspi .tokenResponse .sspi,
    requests .auth .kerberosV5 .tokenResponse .kerberosV5,
    requests .auth .ok .startupReady .ok,
    sends .auth .error .terminated .errorResponse,
    receives .passwordResponse .response .auth,
    receives .saslInitial .initial .sasl,
    requests .sasl .«continue» .saslResponse .saslContinue,
    requests .sasl .final .auth .saslFinal,
    sends .sasl .error .terminated .errorResponse,
    receives .saslResponse .response .sasl,
    receives .tokenResponse .response .tokenPolicy,
    requests .tokenPolicy .«continue» .tokenResponse .gssContinue,
    moves .tokenPolicy .verified .auth,
    sends .tokenPolicy .error .terminated .errorResponse,
    sends .startupReady .parameterStatus .startupReady .parameterStatus,
    sends .startupReady .backendKeyData .startupReady .backendKeyData,
    sends .startupReady .ready .ready .readyForQuery ]

end ServerAuthGrammar
end PgProto
