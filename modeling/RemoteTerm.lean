import RemoteTerm.Library.Text
import RemoteTerm.Library.CodeUnits
import RemoteTerm.Library.Firsts
import RemoteTerm.Library.FormatString
import RemoteTerm.Library.Grouping
import RemoteTerm.Library.Program
import RemoteTerm.Library.Interference
import RemoteTerm.Library.JsNumber
import RemoteTerm.Library.KeyedRows
import RemoteTerm.Library.Lock
import RemoteTerm.Library.Machine
import RemoteTerm.Library.OrderedMap
import RemoteTerm.Library.Numbering
import RemoteTerm.Library.Pages
import RemoteTerm.Library.PercentEncoding
import RemoteTerm.Library.Protocol
import RemoteTerm.Library.Recency
import RemoteTerm.Library.Retention
import RemoteTerm.Library.Separated
import RemoteTerm.Library.Sightings
import RemoteTerm.Library.Signature
import RemoteTerm.Library.Table
import RemoteTerm.Library.Trim
import RemoteTerm.Library.Upsert
import RemoteTerm.Library.Walk
import RemoteTerm.Decoder.PathUtils
import RemoteTerm.Decoder.Advert
import RemoteTerm.Decoder.Decoder
import RemoteTerm.Decoder.PacketGrammar
import RemoteTerm.Decoder.PathPayload
import RemoteTerm.Decoder.Region
import RemoteTerm.Frontend.PathFraming
import RemoteTerm.Repository.AdvertPaths
import RemoteTerm.Contacts.Routes
import RemoteTerm.Repository.Contacts
import RemoteTerm.Repository.RawPackets
import RemoteTerm.Repository.UndecryptedCount
import RemoteTerm.Repository.CountRuns
import RemoteTerm.Repository.DmMigration
import RemoteTerm.Repository.Messages
import RemoteTerm.Repository.PrefixClaim
import RemoteTerm.Services.AckTracker
import RemoteTerm.Services.App
import RemoteTerm.Repository.MessageSearch
import RemoteTerm.Repository.Pagination
import RemoteTerm.Repository.PrefixPromotion
import RemoteTerm.Repository.TelemetryHistory
import RemoteTerm.Repository.UnreadQuery
import RemoteTerm.Repository.UnreadAgreement
import RemoteTerm.Services.Messages
import RemoteTerm.Services.DmIngest
import RemoteTerm.Services.Frames
import RemoteTerm.Services.ClaimRuns
import RemoteTerm.Services.DmContents
import RemoteTerm.Services.DmDeliveries
import RemoteTerm.Services.StoreLock
import RemoteTerm.Services.DmRuns
import RemoteTerm.Services.Duplicates
import RemoteTerm.Services.KeptRows
import RemoteTerm.Packets.Advertisements
import RemoteTerm.Packets.Processor
import RemoteTerm.Packets.ChannelObservations
import RemoteTerm.Packets.Historical
import RemoteTerm.Packets.ChannelAgreement
import RemoteTerm.Send.DirectMessage
import RemoteTerm.Send.ChannelScope
import RemoteTerm.Send.ChannelMessage
import RemoteTerm.Packets.ChannelEcho
import RemoteTerm.Packets.DmAgreement
import RemoteTerm.Packets.RegionTags
import RemoteTerm.Packets.RegionRuns
import RemoteTerm.Send.StoredOnce
import RemoteTerm.Send.AcceptedSends
import RemoteTerm.Send.AckedOnce
import RemoteTerm.Send.ChannelSlots
import RemoteTerm.Send.Pacing
import RemoteTerm.Send.Restoring
import RemoteTerm.Send.Timestamps
import RemoteTerm.Send.SendProtocol
import RemoteTerm.Send.SendRuns
import RemoteTerm.Send.SlotCache
import RemoteTerm.Send.SlotOrder
import RemoteTerm.Send.SlotRuns
import RemoteTerm.Send.SplitText
import RemoteTerm.Radio.Reconcile
import RemoteTerm.Radio.BlindFill
import RemoteTerm.Radio.ContactSelection
import RemoteTerm.Radio.Lifecycle
import RemoteTerm.Radio.KeysCleared
import RemoteTerm.Radio.KeyPair
import RemoteTerm.Radio.PendingMessages
import RemoteTerm.Radio.PendingRuns
import RemoteTerm.Radio.ReconcileTermination
import RemoteTerm.Radio.RegionDump
import RemoteTerm.Radio.TelemetrySchedule
import RemoteTerm.Contacts.RouteIdempotence
import RemoteTerm.Contacts.RouteWriters
import RemoteTerm.Contacts.RouteOverride
import RemoteTerm.Fanout.BotSignature
import RemoteTerm.Frontend.MessageIdentity
import RemoteTerm.Fanout.LppKeys
import RemoteTerm.Fanout.Manager
import RemoteTerm.Fanout.MapUpload
import RemoteTerm.Fanout.MqttPublisher
import RemoteTerm.Fanout.RemovedRuns
import RemoteTerm.Frontend.RoutingOverrideInput
import RemoteTerm.Fanout.TopicTemplate
import RemoteTerm.Frontend.MessageCache
import RemoteTerm.Frontend.ConversationMessages
import RemoteTerm.Frontend.AckDisplay
import RemoteTerm.Frontend.AckBounds
import RemoteTerm.Frontend.AckBuffer
import RemoteTerm.Frontend.ContentDedup
import RemoteTerm.Frontend.AckRuns
import RemoteTerm.Frontend.RawPacketStore
import RemoteTerm.Frontend.ChannelFinder
import RemoteTerm.Frontend.ContactList
import RemoteTerm.Frontend.ContactRuns
import RemoteTerm.Frontend.PacketNetwork
import RemoteTerm.Frontend.SenderSplit
import RemoteTerm.Frontend.Reactions
import RemoteTerm.Frontend.DartHash
import RemoteTerm.Frontend.PacketNetworkIds
import RemoteTerm.Frontend.DirectMessagePath
import RemoteTerm.Frontend.LoadedHistory
import RemoteTerm.Frontend.HistoryPages
import RemoteTerm.Frontend.HistoryPlaces
import RemoteTerm.Frontend.HistoryRequests
import RemoteTerm.Frontend.HistoryRuns
import RemoteTerm.Frontend.PacketDecoder
import RemoteTerm.Frontend.PacketNetworkRuns
import RemoteTerm.Frontend.PacketProjection
import RemoteTerm.Frontend.PacketLinkMeaning
import RemoteTerm.Frontend.PacketNetworkViews
import RemoteTerm.Frontend.PathDistance
import RemoteTerm.Frontend.RawPacketRuns
import RemoteTerm.Frontend.SearchRoundTrip
import RemoteTerm.Frontend.TextReplace
import RemoteTerm.Frontend.UnreadCounts
import RemoteTerm.Frontend.UnreadSnapshots
import RemoteTerm.Frontend.UnreadTraffic
import RemoteTerm.Frontend.UnreadServer
import RemoteTerm.Frontend.UnreadRuns
import RemoteTerm.Frontend.UrlHash
import RemoteTerm.Frontend.WebSocketClient
import RemoteTerm.Push.Subscriptions
import RemoteTerm.Realtime.WebSocketManager
import RemoteTerm.Settings.Toggles
import RemoteTerm.Settings.ToggleRuns
