import Mutgos.Executor.ExclusiveExecution
import Mutgos.Executor.KillDelivery
import Mutgos.Executor.MessageDelivery
import Mutgos.Executor.NoLostWakeup
import Mutgos.Executor.ResourceIds
import Mutgos.DbTypes.EntityLock
import Mutgos.DbTypes.Program
import Mutgos.Text.UrlTags
import Mutgos.Text.ExternalTextJson
import Mutgos.DbInterface.ProgramRegistrations
import Mutgos.DbInterface.PlayerNames
import Mutgos.DbTypes.IdSections
import Mutgos.DbInterface.ReferentialIntegrity
import Mutgos.SqliteInterface.IdAllocation
import Mutgos.DbInterface.EntityLifetime
import Mutgos.DbInterface.DeleteCommits
import Mutgos.DbInterface.DeadlockFreedom
import Mutgos.Security.CacheTransparency
import Mutgos.Security.TransferRules
import Mutgos.Primitives.Containment
import Mutgos.Events.DeletedSubscriptions
import Mutgos.Events.Unsubscribe
import Mutgos.Events.EventDispatch
import Mutgos.CommInterface.PendingWork
import Mutgos.CommInterface.QueuedKinds
import Mutgos.CommInterface.SessionLifetime
import Mutgos.CommInterface.RouterDeadlocks
import Mutgos.Socket.PendingAcknowledgements
import Mutgos.Socket.TelnetOutput
import Mutgos.Socket.ConnectionLifetime
import Mutgos.Websocket.MessageOrder
import Mutgos.Useragent.NameEvents
import Mutgos.Socket.ChannelReconnect
import Mutgos.AngelscriptInterface.ScriptStrings
import Mutgos.DbDump.AppliedInFull
import Mutgos.Executor.BlockingResources
import Mutgos.DbTypes.UpdatedTimestamp
import Mutgos.DbTypes.EntityFlags
import Mutgos.DbTypes.BackReferences
import Mutgos.DbTypes.ActionTargets
import Mutgos.DbTypes.EntityPropertyWalk
import Mutgos.DbTypes.CacheTransparency
import Mutgos.Text.Utf8Search
import Mutgos.Text.SplitRanges
import Mutgos.Text.ShowFormat
import Mutgos.DbTypes.IdText
import Mutgos.DbTypes.SizeLimits
import Mutgos.Primitives.NameSearches
import Mutgos.Security.Locality
import Mutgos.Security.LockedActions
import Mutgos.Primitives.ExitMoves
import Mutgos.Events.SafeSubscriptions
import Mutgos.Primitives.PropParams
import Mutgos.DbInterface.ContainedSearch
import Mutgos.DbInterface.PlayerSearch
import Mutgos.Text.ExtendedAscii
import Mutgos.DbTypes.GroupMembers
import Mutgos.Channels.ChannelEnds
import Mutgos.Utilities.VirtualHeap
import Mutgos.CommInterface.ChannelIds
import Mutgos.CommInterface.ChannelReferences
