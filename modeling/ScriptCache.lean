import ScriptCache.Main
import ScriptCache.Daemon
import ScriptCache.Settings.Json
import ScriptCache.Proofs.Watch.Fleet
import ScriptCache.Proofs.Watch.Local
import ScriptCache.Proofs.Preload
import ScriptCache.Proofs.Preload.ReadBack
import ScriptCache.Proofs.Engine.Alike
import ScriptCache.Proofs.Engine.Provenance
import ScriptCache.Proofs.Disk.Overwrite
import ScriptCache.Proofs.Engine.Writers
import ScriptCache.Proofs.Watch.Entries
import ScriptCache.Proofs.Watch.Roots
import ScriptCache.Proofs.Watch.Peers
import ScriptCache.Proofs.Source.Trivia
import ScriptCache.Proofs.Source.Accepted.Sources
import ScriptCache.Proofs.Service.Requests
import ScriptCache.Proofs.Preload.Verbatim
import ScriptCache.Proofs.Preload.Counts
import ScriptCache.Proofs.Preload.Spelling
import ScriptCache.Proofs.Watch.Wire
import ScriptCache.Proofs.Settings.Store
import ScriptCache.Proofs.Reconcile.Batches
import ScriptCache.Proofs.Watch.Freshness
import ScriptCache.Proofs.Watch.Scanned
import ScriptCache.Proofs.Watch.Vanishing
import ScriptCache.Proofs.Watch.Trailing
import ScriptCache.Proofs.Watch.Unresolved
import ScriptCache.Proofs.Watch.Overlap
import ScriptCache.Proofs.Source.Blocks
import ScriptCache.Proofs.Source.Attributes
import ScriptCache.Proofs.Source.Prefixes
import ScriptCache.Proofs.Source.Interpolation
import ScriptCache.Proofs.Source.Heredoc
import ScriptCache.Proofs.Scan.Enumeration
import ScriptCache.Proofs.Preload.Artifact
import ScriptCache.Proofs.Resolver
import ScriptCache.Proofs.Source.Guarded.Blocks
import ScriptCache.Proofs.Watch.OwnAddress
