import ProgressiveFrame.Store.Readout
import ProgressiveFrame.Limits
import ProgressiveFrame.Denoise.Pipeline
import ProgressiveFrame.Session.Describe
import ProgressiveFrame.Document.Header
import ProgressiveFrame.Document.Configuration
import ProgressiveFrame.Main
import ProgressiveFrame.Proofs.Channel.History
import ProgressiveFrame.Proofs.Store.History
import ProgressiveFrame.Proofs.Store.Rows
import ProgressiveFrame.Proofs.Store.Placement
import ProgressiveFrame.Proofs.Session.Buffers
import ProgressiveFrame.Proofs.Session.Run
import ProgressiveFrame.Proofs.Session.Memory
import ProgressiveFrame.Proofs.Session.FrameStart
import ProgressiveFrame.Proofs.Session.Order
import ProgressiveFrame.Proofs.Session.Refusal
import ProgressiveFrame.Proofs.Session.MetadataOnly
import ProgressiveFrame.Proofs.Denoise.Readouts
import ProgressiveFrame.Proofs.Sample.Pooling
import ProgressiveFrame.Proofs.Image.RoundTrip
import ProgressiveFrame.Proofs.Schedule.Restart
import ProgressiveFrame.Proofs.Schedule.Interval
import ProgressiveFrame.Proofs.Image.Merge
import ProgressiveFrame.Proofs.Verify.Consistency
import ProgressiveFrame.Proofs.Bounds.Store
import ProgressiveFrame.Proofs.Channel.Nearest
import ProgressiveFrame.Proofs.Channel.Blend
import ProgressiveFrame.Proofs.Channel.Weight
import ProgressiveFrame.Proofs.Image.Grammar
import ProgressiveFrame.Proofs.Image.Quantized
import ProgressiveFrame.Proofs.Denoise.Upkeep
import ProgressiveFrame.Proofs.Denoise.Guides
import ProgressiveFrame.Proofs.Verify.Reload
import ProgressiveFrame.Proofs.Config.Loading
import ProgressiveFrame.Proofs.Schedule.Rate
import ProgressiveFrame.Proofs.Tile.PixelSets
