import CompilerSession.HomePath
import CompilerSession.Main
import CompilerSession.Simulation.Script
import CompilerSession.Proofs.Dispatch.Losses
import CompilerSession.Proofs.Server.Admission
import CompilerSession.Proofs.Server.Detection
import CompilerSession.Proofs.Server.Rations
import CompilerSession.Proofs.Server.Starting
import CompilerSession.Proofs.Session.Chronicle
import CompilerSession.Proofs.Session.Coalescing
import CompilerSession.Proofs.Session.Leftovers
import CompilerSession.Proofs.Settings.RoundTrip
import CompilerSession.Proofs.Settings.Spelling
import CompilerSession.Proofs.Version
import CompilerSession.Proofs.Wire.Responses
import CompilerSession.Proofs.Wire.Streams
import CompilerSession.Proofs.Json.Equality
import CompilerSession.Proofs.Server.Lifetimes
import CompilerSession.Proofs.Json.Nesting
import CompilerSession.Proofs.Server.Keys
