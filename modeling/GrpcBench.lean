import GrpcBench.Collect.Affinity.Flat
import GrpcBench.Collect.Affinity.Grammar
import GrpcBench.Collect.Affinity.Layout
import GrpcBench.Collect.Decode
import GrpcBench.CrossStream.Agreement
import GrpcBench.CrossStream.Pairing
import GrpcBench.Digest.Interleavings
import GrpcBench.Matching.Batching
import GrpcBench.Matching.Buckets
import GrpcBench.Matching.Bursts
import GrpcBench.Matching.Commitments
import GrpcBench.Matching.Join
import GrpcBench.Matching.Symmetry
import GrpcBench.Programs.RoundTrip
import GrpcBench.Proto.Audit
import GrpcBench.Proto.Grammar
import GrpcBench.Run.Capture
import GrpcBench.Run.Conservation
import GrpcBench.Run.Consistency
import GrpcBench.Run.Coordinator
import GrpcBench.Run.Disconnects
import GrpcBench.Run.Drain
import GrpcBench.Run.Drift
import GrpcBench.Run.Frames
import GrpcBench.Run.GiveUp
import GrpcBench.Run.Launch
import GrpcBench.Run.Placement
import GrpcBench.Run.Programs
import GrpcBench.Run.Reconnects
import GrpcBench.Run.Records
import GrpcBench.Run.Replay
import GrpcBench.Run.Shutdown
import GrpcBench.Run.SlotDelivery
import GrpcBench.Run.Slots
import GrpcBench.Run.Solo
import GrpcBench.Run.WallClock
import GrpcBench.Stability.FirstArrivals
import GrpcBench.Stability.Gaps
import GrpcBench.Stability.Memory
import GrpcBench.Subscribe.Exactness
