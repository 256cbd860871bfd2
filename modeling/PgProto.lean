import PgProto.Grammar.Compatibility
import PgProto.Pipeline.Transparency
import PgProto.Pipeline.Typed
import PgProto.Intermediary.LocalQueue
import PgProto.Intermediary.Rejection
import PgProto.Intermediary.Holding
import PgProto.Intermediary.Backpressure
import PgProto.Intermediary.Attribution
import PgProto.Typestate.Pristine
import PgProto.Typestate.ServerGrammar
import PgProto.Scram.Verification
import PgProto.Pipeline.HalfClose
import PgProto.Intermediary.Release
import PgProto.Intermediary.Accounting
import PgProto.Grammar.AuthenticationCompatibility
import PgProto.Component.EstablishmentGrammar
import PgProto.Component.Mediation
import PgProto.Typestate.Demultiplexing
import PgProto.Typestate.ResourceLifetimes
import PgProto.Codec.StartupCanonical
import PgProto.Component.Cancellation
import PgProto.Component.ServerAccept
import PgProto.Grammar.Generator
import PgProto.Pipeline.Structure
import PgProto.Codec.Bounds
