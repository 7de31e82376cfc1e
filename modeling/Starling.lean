import Starling.Storage.Migrations
import Starling.Http.Columns
import Starling.Http.Forwarding
import Starling.Http.Isolation
import Starling.Voice.Admission
import Starling.Voice.Wiring
import Starling.Voice.View
import Starling.Relay.Endurance
import Starling.Relay.Mirror
import Starling.Relay.Crashes
import Starling.Relay.AdminUi
import Starling.App.Requester
import Starling.App.Removal
import Starling.App.Coverage
import Starling.App.Reading
import Starling.App.FollowLives
import Starling.App.RoomCreator
import Starling.App.RoomArrivals
import Starling.App.FeedSurface
import Starling.App.Rosters
import Starling.App.RelayRequests
import Starling.App.SignalingUpgrade
import Starling.App.Retention
import Starling.App.Gallery
import Starling.App.RoomManager
import Starling.App.RoomRow
import Starling.App.Base32
import Starling.Http.RateLimit
import Starling.Relay.PairOwner
import Starling.App.Concurrency
import Starling.App.Tiers
import Starling.App.BridgeReads
import Starling.App.RateLimiter
import Starling.App.MediaFetches
import Starling.App.OnionPublisher
import Starling.App.Reactions
import Starling.App.MediaCache
import Starling.App.OutboundQueue
