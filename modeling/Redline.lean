import Redline.Cancellation
import Redline.Main
import Redline.Rehearsal
import Redline.Proofs.Bisect
import Redline.Proofs.Rows
import Redline.Proofs.Sync
import Redline.Proofs.Coordinates
import Redline.Proofs.Draft
import Redline.Proofs.Shifting
import Redline.Proofs.Tracking
import Redline.Proofs.Settling
import Redline.Proofs.Following
import Redline.Proofs.Edits
import Redline.Proofs.Streaming
import Redline.Proofs.Reachability
import Redline.Proofs.Atomicity
import Redline.Proofs.Soundness
import Redline.Proofs.Deciding
import Redline.Proofs.Groups
import Redline.Proofs.Merging
import Redline.Proofs.Markup
import Redline.Proofs.View
import Redline.Proofs.Refinement
import Redline.Proofs.Reporting
import Redline.Proofs.Managing
import Redline.Proofs.Traffic
import Redline.Proofs.Superseding
import Redline.Proofs.Stranding
import Redline.Proofs.Overlays
import Redline.Proofs.Hosting
import Redline.Proofs.TextChanges
import Redline.Proofs.Driving
import Redline.Proofs.Pacing
import Redline.Proofs.Tokens
import Redline.Proofs.Cancelling
import Redline.Proofs.Printing
import Redline.Proofs.Lifecycle
import Redline.Proofs.Listing
import Redline.Proofs.Bulletins
import Redline.Proofs.Announcing
import Redline.Proofs.Renaming
import Redline.Proofs.Excerpts
import Redline.Proofs.Sharing
import Redline.Proofs.Isolation
import Redline.Proofs.Scripts
import Redline.Proofs.Validity
import Redline.Proofs.RowMap
import Redline.Proofs.Identity
import Redline.Proofs.Undoing
import Redline.Proofs.Pairing
import Redline.Proofs.Resolving
import Redline.Proofs.Shaping
import Redline.Proofs.Anchoring
import Redline.Proofs.Cuts
import Redline.Proofs.RowGroups
import Redline.Proofs.TrailingReturn
import Redline.Proofs.Seams
import Redline.Proofs.Wakeups
import Redline.Proofs.Holders
import Redline.Proofs.Recording
import Redline.Proofs.Parting
import Redline.Proofs.Lagging
import Redline.Proofs.Texts
