import HostBridge.Main
import HostBridge.Proofs.WireForm
import HostBridge.Proofs.CanonicalText
import HostBridge.Proofs.NormalForm
import HostBridge.Proofs.Lossless
import HostBridge.Proofs.Contents
import HostBridge.Proofs.Calls
import HostBridge.Proofs.LogIndependence
import HostBridge.Proofs.Effects
import HostBridge.Proofs.FailedCalls
import HostBridge.Proofs.References
import HostBridge.Proofs.HandOver
import HostBridge.Proofs.WriteBack
import HostBridge.Proofs.Reproduction
import HostBridge.Proofs.Kinds
import HostBridge.Proofs.WireGrammar
import HostBridge.Proofs.Interchange
import HostBridge.Proofs.Registrations
import HostBridge.Proofs.ShortestNumeral
import HostBridge.Proofs.JsonStrings
import HostBridge.Proofs.JsonNumbers
import HostBridge.Proofs.JsonText
import HostBridge.Proofs.CommandCall
import HostBridge.Proofs.JsonReading
import HostBridge.Proofs.JsonSpelling
import HostBridge.Proofs.CanonicalImage
import HostBridge.Proofs.CompositeKeys
import HostBridge.Proofs.ArgumentDecoding
import HostBridge.Proofs.ArgumentFailures
import HostBridge.Proofs.KeyEquality
import HostBridge.Proofs.ObjectTables
import HostBridge.Proofs.WholeNumbers
import HostBridge.Proofs.WholeNumberTexts
import HostBridge.Proofs.Totality
import HostBridge.Proofs.OptionalParameters
import HostBridge.Proofs.NumericTexts
import HostBridge.Proofs.NumberRoundTrip
import HostBridge.Proofs.Coercions
import HostBridge.Proofs.Decorators
import HostBridge.Proofs.DirectCallbacks
import HostBridge.Proofs.JsonLimit
import HostBridge.Proofs.CommandEndings
import HostBridge.Proofs.LogConfiguration
import HostBridge.Proofs.LogWiring
import HostBridge.Proofs.FilterTexts
