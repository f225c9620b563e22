import FastRepo.Lib.PrefixRun
import FastRepo.Lib.PathTrie
import FastRepo.Lib.TightPrefixes
import FastRepo.Ndn.Name
import FastRepo.Ndn.Packet
import FastRepo.Storage.NameTrie
import FastRepo.Storage.Engine
import FastRepo.Lib.Decimal
import FastRepo.Ndn.UriText
import FastRepo.Lib.RankedCode
import FastRepo.Ndn.UriOrder
import FastRepo.Ndn.NameConventions
import FastRepo.Lib.Tlv
import FastRepo.Ndn.WireTlv
import FastRepo.Storage.PacketStore
import FastRepo.Storage.PrefixLookup
import FastRepo.Lib.SeparatedText
import FastRepo.Storage.UriMatch
import FastRepo.Storage.SuffixBounds
import FastRepo.Storage.LatestVersion
import FastRepo.Handles.Command
import FastRepo.Handles.ReadHandle
import FastRepo.Lib.Exits
import FastRepo.Lib.Registry
import FastRepo.Lib.Runs
import FastRepo.Repo.State
import FastRepo.Lib.PrefixCover
import FastRepo.Repo.Listening
import FastRepo.Handles.CommandTlv
import FastRepo.Repo.PrefixRegistry
import FastRepo.Storage.LongestPrefixes
import FastRepo.Storage.KeyScan
import FastRepo.Storage.Rescan
import FastRepo.Repo.StartupCoverage
import FastRepo.Handles.BaseHandle
import FastRepo.Handles.FetchPattern
import FastRepo.Handles.PatternHandle
import FastRepo.Handles.WriteHandle
import FastRepo.Repo.System
import FastRepo.Repo.Frames
import FastRepo.Repo.InsertProtocol
import FastRepo.Repo.PatternState
import FastRepo.Repo.CallbackLifetime
import FastRepo.Repo.PatternProtocol
import FastRepo.Repo.RuntimeCoverage
import FastRepo.Repo.StoreState
import FastRepo.Repo.FailedWrites
import FastRepo.Repo.FailingExits
import FastRepo.Lib.Json
import FastRepo.Lib.JsonText
import FastRepo.Lib.Utf8
import FastRepo.Lib.Gather
import FastRepo.Handles.StatusHandle
import FastRepo.Handles.StatusReports
import FastRepo.Handles.Serializer
import FastRepo.Lib.ValueSum
import FastRepo.Handles.StoreStatistics
import FastRepo.Repo.StatusIsolation
import FastRepo.Repo.StatusNamespaces
import FastRepo.Repo.ActivePatterns
import FastRepo.Repo.CancelFinality
import FastRepo.Repo.NullRecorders
import FastRepo.Repo.ClientCommands
import FastRepo.Repo.CounterFetch
import FastRepo.Lib.LastWrite
import FastRepo.Repo.StoreHistory
import FastRepo.Repo.FetchedData
import FastRepo.Repo.Restarts
import FastRepo.Repo.SentPackets
import FastRepo.Repo.ClientSessions
import FastRepo.Repo.Delivery
import FastRepo.Repo.Registrations
import FastRepo.Repo.ConfigFile
import FastRepo.Repo.StatusTruth
import FastRepo.Repo.ServedLater
import FastRepo.Repo.InsertSlots
