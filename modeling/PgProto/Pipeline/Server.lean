import PgProto.Pipeline.Mirror

/-!
# Server — a conforming upstream server and the system around the ledger

An abstract server that reads the forwarded messages in order, answers each one with a complete
word of the `backend` grammar and, after an error in the extended protocol, ignores messages up to
the next Sync.  It starts no COPY IN and no COPY BOTH.

`System` puts it behind the ledger: messages wait in an inbox until the server reads them and in an
outbox until they are delivered, so that admissions, answers and deliveries interleave freely.
-/

namespace PgProto

open Backend (RuntimeState transitions)
open Lib

/-! ## Words of the grammar -/

def internalWord (word : List BackendMessage) : Backend.Word :=
  word.map fun b => .internal b.variant

/-- The phases in which the answer to an operation may end. -/
def completions : OperationKind → List RuntimeState
  | .query | .functionCall => [.ready]
  | _ => [.building, .extendedError]

/-- A complete answer, without CopyInResponse and CopyBothResponse. -/
structure CompleteWord (kind : OperationKind) (word : List BackendMessage)
    (final : RuntimeState) : Prop where
  path : transitions.walk (initialResponseState kind) (internalWord word) = some final
  complete : final ∈ completions kind
  noCopy : ∀ b ∈ word, b.variant ≠ .copyInResponse ∧ b.variant ≠ .copyBothResponse

/-- The operations that are answered with a word of the grammar. -/
def answeredKind? : FrontendVariant → Option OperationKind
  | .query => some .query
  | .functionCall => some .functionCall
  | .parse => some .parse
  | .bind => some .bind
  | .describe => some .describe
  | .execute => some .execute
  | .close => some .close
  | _ => none

/-- How the server reads one message: whether it was ignoring messages, the message, its answer,
and whether it ignores messages from now on. -/
inductive Serves : Bool → FrontendMessage → List BackendMessage → Bool → Prop
  | ignored {message} : message.variant ≠ .sync → Serves true message [] true
  | sync {skipping status} : Serves skipping .sync [.readyForQuery status] false
  | silent {message} : message.variant = .flush ∨ message.variant = .terminate →
      Serves false message [] false
  | answered {message kind word final} : answeredKind? message.variant = some kind →
      CompleteWord kind word final →
      Serves false message word (decide (final = .extendedError))

/-! ## The system -/

structure System where
  ledger : Pipeline
  inbox : List FrontendMessage
  skipping : Bool
  outbox : List BackendMessage

inductive SystemEvent
  | offer (message : FrontendMessage)
  | serve
  | deliver
  | notify (message : BackendMessage)

/-- The message an admission hands on to the server. -/
def handedOn : Reply → List FrontendMessage
  | .frontend (.ok admission) =>
    match admission.intoAction with
    | .forward _ message => [message]
    | .discard _ => []
  | _ => []

namespace System

def new (policy : PipelinePolicy) : System :=
  { ledger := Pipeline.new policy
    inbox := []
    skipping := false
    outbox := [] }

/-- The client sends, the server reads, a response is delivered, an asynchronous message is
delivered out of band. -/
inductive Step : System → SystemEvent → Option Reply → System → Prop
  | offer {s : System} {message reply p} :
      Pipeline.Step s.ledger (.frontend message .forward) reply p →
      Step s (.offer message) (some reply)
        { s with ledger := p, inbox := s.inbox ++ handedOn reply }
  | serve {s : System} {message messages word skipping} :
      s.inbox = message :: messages → Serves s.skipping message word skipping →
      Step s .serve none
        { s with inbox := messages, skipping := skipping, outbox := s.outbox ++ word }
  | deliver {s : System} {b bs reply p} :
      s.outbox = b :: bs → Pipeline.Step s.ledger (.backend b) reply p →
      Step s .deliver (some reply) { s with ledger := p, outbox := bs }
  | notify {s : System} {b reply p} :
      isAsynchronous b = true → Pipeline.Step s.ledger (.backend b) reply p →
      Step s (.notify b) (some reply) { s with ledger := p }

abbrev Run (policy : PipelinePolicy) (h : List (Entry System SystemEvent (Option Reply)))
    (s : System) : Prop :=
  History Step (new policy) h s

end System
end PgProto
