import FrameCache.Replay.Cache
import FrameCache.Replay.Run
import FrameCache.Proofs.CacheView
import FrameCache.Proofs.Departures
import FrameCache.Proofs.Ledger
import FrameCache.Proofs.Acts
import FrameCache.Proofs.Holdings
import FrameCache.Proofs.Teardown
import FrameCache.Proofs.Painting
import FrameCache.Proofs.Upkeep
import FrameCache.Proofs.Environment
import FrameCache.Proofs.Frames
import FrameCache.Proofs.Order
import FrameCache.Proofs.Readings
import FrameCache.Proofs.Closing
import FrameCache.Proofs.Keeping
import FrameCache.Proofs.Sparing
import FrameCache.Proofs.SweepHistory
import FrameCache.Proofs.UseHistory
import FrameCache.Proofs.FlatCache
import FrameCache.Proofs.TextureAccounts
import FrameCache.Proofs.DurationGrammar
import FrameCache.Proofs.DurationReading
import FrameCache.Proofs.DurationBlame
import FrameCache.Proofs.DurationValue
import FrameCache.Proofs.DurationExactness
import FrameCache.Proofs.Belongings
import FrameCache.Proofs.Visits
import FrameCache.Proofs.WindowCalls
import FrameCache.Proofs.Windows
import FrameCache.Proofs.Lifecycle
import FrameCache.Proofs.Repaints
import FrameCache.Proofs.TextureOrigins
import FrameCache.Proofs.FreshTextures
import FrameCache.Proofs.Sweeping
import FrameCache.Proofs.Concerns
import FrameCache.Proofs.DeferredSweeps
import FrameCache.Proofs.Forest
import FrameCache.Proofs.SceneForest
import FrameCache.Proofs.SceneWalk
import FrameCache.Proofs.Lasting
import FrameCache.Proofs.Removals
import FrameCache.Proofs.SweepEffects
import FrameCache.Proofs.Forgetting
import FrameCache.Proofs.Expiry
import FrameCache.Proofs.Fetching
import FrameCache.Proofs.CacheWalks
import FrameCache.Proofs.Contents
import FrameCache.Proofs.Rearrangement
import FrameCache.Proofs.SceneRemoval
import FrameCache.Proofs.LivenessWalks
import FrameCache.Proofs.PaintedTrees
import FrameCache.Proofs.Closures
import FrameCache.Proofs.LoopSteps
import FrameCache.Proofs.LoopRuns
import FrameCache.Proofs.SceneRecursions
import FrameCache.Proofs.Restyling
import FrameCache.Proofs.SettingsChanges
