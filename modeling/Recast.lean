import Recast.Inference.Programmed
import Recast.Main
import Recast.Proofs.Conversion.Fallback
import Recast.Proofs.Cache.History
import Recast.Proofs.Conversion.Requests
import Recast.Proofs.Conversion.Stages
import Recast.Proofs.Go.Check
import Recast.Proofs.Layout.Output
import Recast.Proofs.Reply.Chunks
import Recast.Proofs.Run.Listing
import Recast.Proofs.Run.Sessions
import Recast.Proofs.Files.Make
import Recast.Proofs.Go.Beginning
import Recast.Proofs.Reply.EarlyStop
import Recast.Proofs.Reply.Blocks
import Recast.Proofs.Run.Counting
import Recast.Proofs.Layout.Beside
import Recast.Proofs.Run.Indexing
import Recast.Proofs.Run.Keeping
import Recast.Proofs.Run.Recorded
import Recast.Proofs.Run.Additive
import Recast.Proofs.Run.Reusing
import Recast.Proofs.Run.Asking
import Recast.Proofs.Run.Passes
import Recast.Proofs.Run.Incremental
import Recast.Proofs.Go.Clause
import Recast.Proofs.Go.Declared
import Recast.Proofs.Layout.Targets
import Recast.Proofs.Run.Fulfilling
import Recast.Proofs.Run.Analyzing
import Recast.Proofs.Run.Processing
import Recast.Proofs.Run.Scheduling
import Recast.Proofs.Layout.Reordered
import Recast.Proofs.Conversion.Cancellation
import Recast.Proofs.Conversion.Attempts
import Recast.Proofs.Cache.Mirror
import Recast.Proofs.Cache.Outages
import Recast.Proofs.Cache.Sharing
import Recast.Proofs.Outline.Calls
import Recast.Proofs.Go.Stubs
import Recast.Proofs.Assessment.Merge
import Recast.Proofs.Meaning.Counts
import Recast.Proofs.Meaning.Query
import Recast.Proofs.Assessment.Coverage
import Recast.Proofs.Go.Diagnostics
import Recast.Proofs.Scan.Sources
import Recast.Proofs.PromptText
import Recast.Proofs.Assessment.Confidence
