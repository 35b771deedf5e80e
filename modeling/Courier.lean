import Courier.Main
import Courier.Rehearsal.Server
import Courier.Proofs.ScopeBound
import Courier.Proofs.BucketLaw
import Courier.Proofs.FailureShape
import Courier.Proofs.LastAnswer
import Courier.Proofs.Replay
import Courier.Proofs.ContentType
import Courier.Proofs.ConfigLayers
import Courier.Proofs.SideBySide
import Courier.Proofs.CredentialIndependence
import Courier.Proofs.Layers
import Courier.Proofs.Onion
import Courier.Proofs.QueryRoundTrip
import Courier.Proofs.Veil
import Courier.Proofs.LogSecrecy
import Courier.Proofs.ContextFamily
import Courier.Proofs.CommandLayers
import Courier.Proofs.StubHistory
import Courier.Proofs.TokenWait
import Courier.Proofs.BackoffCurve
import Courier.Proofs.Escapes
import Courier.Proofs.Segments
import Courier.Proofs.HostText
import Courier.Proofs.UrlText
import Courier.Proofs.PathClimb
import Courier.Proofs.PathSlot
import Courier.Proofs.KeyParameter
import Courier.Proofs.DocumentEquality
import Courier.Proofs.HiddenDocument
import Courier.Proofs.CredentialMask
import Courier.Proofs.HiddenQuery
import Courier.Proofs.CredentialPattern
import Courier.Proofs.MarkupScan
import Courier.Proofs.OpenElements
import Courier.Proofs.FaultReading
import Courier.Proofs.CharacterData
import Courier.Proofs.MarkupTree
import Courier.Proofs.FaultParts
import Courier.Proofs.EnvelopeTree
import Courier.Proofs.FaultEnvelope
import Courier.Proofs.DividedText
import Courier.Proofs.PayloadText
import Courier.Proofs.FlatRecord
import Courier.Proofs.FlatReading
import Courier.Proofs.EnvelopeRoundTrip
import Courier.Proofs.PlaceholderCut
import Courier.Proofs.WholeNumber
import Courier.Proofs.RetryAfter
import Courier.Proofs.ReportedAttempts
import Courier.Proofs.RateSpec
