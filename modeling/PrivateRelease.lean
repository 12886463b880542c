import PrivateRelease.Number.Elementary
import PrivateRelease.Number.Text
import PrivateRelease.Number.Integer
import PrivateRelease.Text.Quoted
import PrivateRelease.Descriptor.Reader
import PrivateRelease.Descriptor.Substitution
import PrivateRelease.Value.Order
import PrivateRelease.Domain.Member
import PrivateRelease.Distance.Order
import PrivateRelease.Mechanism.Noise
import PrivateRelease.Mechanism.Dataset
import PrivateRelease.Mechanism.Release
import PrivateRelease.Mechanism.Chain
import PrivateRelease.Mechanism.Composition
import PrivateRelease.Mechanism.Amplification
import PrivateRelease.Mechanism
import PrivateRelease.Boundary.Export
import PrivateRelease.Host.Features
import PrivateRelease.Host.Signature
import PrivateRelease.Host.Handle
import PrivateRelease.Host.Marshal
import PrivateRelease.Host.Resolution
import PrivateRelease.Host.Dispatch
import PrivateRelease.Host.Combination
import PrivateRelease.Host.Workspace
import PrivateRelease.Proofs.Descriptor.Parsing
import PrivateRelease.Proofs.Host.Workspaces
import PrivateRelease.Proofs.Mechanism.Losses
import PrivateRelease.Proofs.Host.Refinement
import PrivateRelease.Proofs.Host.Boundaries
import PrivateRelease.Proofs.Host.RoundTrip
import PrivateRelease.Proofs.Host.NativeFailures
import PrivateRelease.Proofs.Mechanism.Closure
import PrivateRelease.Proofs.Mechanism.Stability
import PrivateRelease.Proofs.Mechanism.Monotonicity
import PrivateRelease.Proofs.Host.Verdicts
import PrivateRelease.Proofs.Boundary.Slots
import PrivateRelease.Proofs.Host.Requests
import PrivateRelease.Proofs.Host.Agreement
import PrivateRelease.Proofs.Boundary.Determinism
import PrivateRelease.Proofs.Host.Determinism
import PrivateRelease.Proofs.Host.Consumption
import PrivateRelease.Proofs.Number.Exact
import PrivateRelease.Proofs.Number.Roundoff
import PrivateRelease.Proofs.Mechanism.Aggregates
import PrivateRelease.Proofs.Number.Narrowing
import PrivateRelease.Proofs.Mechanism.Additive
import PrivateRelease.Proofs.Host.Releases
import PrivateRelease.Proofs.Host.Limits
import PrivateRelease.Proofs.Host.Readings
import PrivateRelease.Proofs.Host.Marshalling
import PrivateRelease.Proofs.Number.Upward
import PrivateRelease.Proofs.Mechanism.Splitting
import PrivateRelease.Proofs.Mechanism.Populations
import PrivateRelease.Proofs.Mechanism.GeometricNoise
import PrivateRelease.Proofs.Distance.Order
import PrivateRelease.Proofs.Host.Templates
import PrivateRelease.Proofs.Domain.Carriers
import PrivateRelease.Proofs.Host.Passing
