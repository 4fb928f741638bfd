import AlephCvm.NumaLedger
import AlephCvm.AttestAgent
import AlephCvm.AttestClientSoundness
import AlephCvm.CreateVmCleanup
import AlephCvm.OffsetLedger
import AlephCvm.CrashRecovery
import AlephCvm.SchedulerConvergence
import AlephCvm.UsableAddresses
import AlephCvm.NumaRestart
import AlephCvm.VmRoundTrip
import AlephCvm.AddressLeases
import AlephCvm.OrphanUnits
import AlephCvm.DeadUnits
import AlephCvm.DuplicateCreation
import AlephCvm.PersistedForwards
import AlephCvm.InterfaceLeases
import AlephCvm.ForwardRules
import AlephCvm.ForwardOwners
import AlephCvm.Ipv6Ranges
import AlephCvm.SecretInjection
import AlephCvm.NftablesInitialize
import AlephCvm.SetupIdempotence
import AlephCvm.BaseChains
import AlephCvm.RecoveryReplay
import AlephCvm.ForwardAgreement
import AlephCvm.AcceptLeftovers
import AlephCvm.MachineLifetimes
import AlephCvm.PacketFilter
import AlephCvm.FirewallPackets
import AlephCvm.FreshSupervisor
import AlephCvm.Installations
import AlephCvm.HostTraffic
import AlephCvm.PortIsolation
import AlephCvm.SplitText
import AlephCvm.GreedyMatch
import AlephCvm.GuestInit
import AlephCvm.BootIntegrity
import AlephCvm.TextScanning
import AlephCvm.VerityCache
import AlephCvm.TranslatedRequests
import AlephCvm.UnixPaths
import AlephCvm.VolumeCache
import AlephCvm.SharedVolumes
import AlephCvm.NamedFiles
import AlephCvm.VolumeDownloads
import AlephCvm.AllocationInterleavings
import AlephCvm.NumaCapacity
import AlephCvm.StickyCertificates
import AlephCvm.NdpProxy
import AlephCvm.NodeHashDiscovery
import AlephCvm.NodeRegistrations
import AlephCvm.JsonRecords
import AlephCvm.MessageVolumes
import AlephCvm.OptionLists
import AlephCvm.DecimalText
import AlephCvm.AcceptedCommands
import AlephCvm.NarrowedFields
import AlephCvm.ForwardRemovals
import AlephCvm.CleanupOutcomes
import AlephCvm.FailedForwards
import AlephCvm.NumaPlacement
import AlephCvm.RandomAddresses
import AlephCvm.BigEndian
import AlephCvm.DerLengths
import AlephCvm.CpuLists
import AlephCvm.Hugepages
import AlephCvm.TopologyDetection
import AlephCvm.SignatureComponents
import AlephCvm.AllocationReports
import AlephCvm.WritePaths
import AlephCvm.HttpRedirects
import AlephCvm.AttestProxy
import AlephCvm.Utf8Text
import AlephCvm.HexText
import AlephCvm.JsonTexts
import AlephCvm.JsonRoundTrips
import AlephCvm.ReportRecords
import AlephCvm.AttestedIdentity
import AlephCvm.SecretHandover
import AlephCvm.MachineOrigins
import AlephCvm.ServiceRuns
import AlephCvm.SchedulerRuns
import AlephCvm.DeployedMachines
import AlephCvm.AddressTexts
import AlephCvm.RecordFields
import AlephCvm.MessageRecords
import AlephCvm.StateRecords
import AlephCvm.StateFiles
import AlephCvm.PassphraseHandover
import AlephCvm.PassphraseOutcome
import AlephCvm.FirewallChanges
import AlephCvm.HostRules
import AlephCvm.HostDecisions
