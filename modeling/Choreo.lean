import Choreo.Main
import Choreo.Proofs.Playback.Beside
import Choreo.Proofs.Playback.Journal
import Choreo.Proofs.Playback.Outcome
import Choreo.Proofs.Playback.Solo
import Choreo.Proofs.Playback.Projection
import Choreo.Proofs.Playback.Cancellation
import Choreo.Proofs.Playback.Order
import Choreo.Proofs.Playback.Account
import Choreo.Proofs.Playback.Punctuality
import Choreo.Proofs.Playback.Pausing
import Choreo.Proofs.Playback.Shared
import Choreo.Proofs.Playback.Floor
import Choreo.Proofs.Playback.Tasks
import Choreo.Proofs.Playback.Flags
import Choreo.Proofs.Playback.Releases
import Choreo.Proofs.Playback.Regions
import Choreo.Proofs.Script.Language
import Choreo.Proofs.Script.Shape
import Choreo.Proofs.Script.Selection
import Choreo.Proofs.Playback.Announcing
import Choreo.Proofs.Playback.Countdowns
import Choreo.Proofs.Playback.Alone
import Choreo.Proofs.Playback.Addressed
import Choreo.Proofs.Playback.Undisturbed
import Choreo.Proofs.Channel
import Choreo.Proofs.Policy
import Choreo.Proofs.Timeline
import Choreo.Proofs.PlayedTime
import Choreo.Proofs.Binary64
import Choreo.Proofs.Seconds
import Choreo.Proofs.Script.Lengths
import Choreo.Proofs.Playback.Unbroken
import Choreo.Proofs.Playback.Uninterrupted
import Choreo.Proofs.Playback.Coherence
import Choreo.Proofs.Playback.Lifecycle
import Choreo.Proofs.Playback.Signals
import Choreo.Proofs.Playback.Paddings
import Choreo.Proofs.Playback.Visits
import Choreo.Proofs.Playback.OnTheBeat
import Choreo.Proofs.Playback.ForcedStop
import Choreo.Proofs.Playback.Refusals
import Choreo.Proofs.Script.Composition
import Choreo.Proofs.Script.Comment
import Choreo.Proofs.Script.WaitToken
import Choreo.Proofs.Script.RoundTrip
import Choreo.Proofs.Text
import Choreo.Proofs.SecondsText
import Choreo.Proofs.Decimal
import Choreo.Proofs.Script.Silence
import Choreo.Proofs.Script.Padding
import Choreo.Proofs.Script.Keywords
import Choreo.Proofs.Playback.Together
import Choreo.Proofs.Script.KeptLines
import Choreo.Proofs.Script.LeftTokens
