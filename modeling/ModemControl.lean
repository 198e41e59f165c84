import ModemControl.ControlPipe
import ModemControl.DeferredReset
import ModemControl.NvRead
import ModemControl.NvRepair
import ModemControl.NvDisk
import ModemControl.NvRecovery
import ModemControl.Foundation.Select
import ModemControl.ListenModem
import ModemControl.Uevent
import ModemControl.PrepareReset
import ModemControl.Foundation.Alternation
import ModemControl.Load
import ModemControl.LoadOutcomes
import ModemControl.LoadLocks
import ModemControl.Foundation.Layers
import ModemControl.Foundation.Monitor
import ModemControl.LoadCalls
import ModemControl.LoadReports
import ModemControl.Handshake
import ModemControl.Foundation.Separation
import ModemControl.LoadVerify
import ModemControl.LoaderState
import ModemControl.ListenLoops
import ModemControl.WakeLock
import ModemControl.MiniapPanic
import ModemControl.AliveTimeout
import ModemControl.ClientState
import ModemControl.WriteMutex
import ModemControl.VerifyTable
import ModemControl.Foundation.Switches
import ModemControl.LoadFiles
import ModemControl.Protections
import ModemControl.SecureVerify
import ModemControl.Broadcasts
import ModemControl.ClientTable
import ModemControl.Foundation.Buffer
import ModemControl.ModemHead
import ModemControl.HeadBounds
import ModemControl.HeadFormats
import ModemControl.Foundation.Strtoul
import ModemControl.XmlTags
import ModemControl.XmlBounds
import ModemControl.XmlLoad
import ModemControl.XmlRun
import ModemControl.XmlTable
import ModemControl.LoadPasses
import ModemControl.RegionInfo
import ModemControl.Foundation.OnesComplement
import ModemControl.Checksum
import ModemControl.NvCorruption
import ModemControl.RemoteFlag
import ModemControl.ImgInfo
import ModemControl.SciHeader
import ModemControl.ImgExtent
import ModemControl.LoadSizes
import ModemControl.Foundation.Ends
import ModemControl.ImageFiles
import ModemControl.ImageCopy
import ModemControl.ImageClear
import ModemControl.ImageLoads
import ModemControl.BootCode
import ModemControl.Foundation.Search
import ModemControl.ResetRequests
import ModemControl.LoadNodes
import ModemControl.NodeAddresses
import ModemControl.PcieRescan
import ModemControl.ParseCmdline
import ModemControl.CpCmdline
import ModemControl.ParseEvent
import ModemControl.ClientReads
import ModemControl.HeadCorrect
import ModemControl.XmlNumbers
import ModemControl.Foundation.Hex
import ModemControl.HexToBin
import ModemControl.PukCmdline
import ModemControl.DumpRegion
import ModemControl.HeaderLookup
import ModemControl.AliveDescriptors
import ModemControl.EventClients
import ModemControl.UeventFields
import ModemControl.DriverFlags
import ModemControl.ClientWatch
import ModemControl.ClientResponse
import ModemControl.Reloads
import ModemControl.Foundation.Threads
import ModemControl.KbcTables
import ModemControl.PciePaths
import ModemControl.Boot
import ModemControl.Daemon
import ModemControl.DaemonRights
import ModemControl.DeviceMemory
import ModemControl.DevicePasses
import ModemControl.AnnouncedRegions
import ModemControl.DebugTool
import ModemControl.DoneFlags
import ModemControl.Foundation.Ledger
import ModemControl.LoadHandles
import ModemControl.ReloadLosses
import ModemControl.Foundation.Refinement
import ModemControl.ResetCalls
import ModemControl.ResetRefines
