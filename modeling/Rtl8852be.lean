import Rtl8852be.Interaction.Program
import Rtl8852be.Interaction.Checks
import Rtl8852be.Interaction.History
import Rtl8852be.Station.Run
import Rtl8852be.Station.TrafficGate
import Rtl8852be.Station.Authorization
import Rtl8852be.Station.Faults
import Rtl8852be.Station.Trace
import Rtl8852be.Station.Tokens
import Rtl8852be.Station.Disconnect
import Rtl8852be.Station.Scan
import Rtl8852be.Ring.Window
import Rtl8852be.Ring.Cells
import Rtl8852be.Queue.TxOwnership
import Rtl8852be.Queue.Leases
import Rtl8852be.Queue.Net80211PciQueue
import Rtl8852be.Queue.FirmwareDmaQueue
import Rtl8852be.Queue.Retention
import Rtl8852be.Queue.RxDmaQueue
import Rtl8852be.Queue.PciRxAssembly
import Rtl8852be.Pci.PciRuntime
import Rtl8852be.Pci.Effects
import Rtl8852be.Pci.BusMaster
import Rtl8852be.Pci.Doorbells
import Rtl8852be.Host.MacNetworkState
import Rtl8852be.Host.Actions
import Rtl8852be.Commands.FirmwareCommands
import Rtl8852be.Commands.Delivery
import Rtl8852be.Commands.Codec
import Rtl8852be.Interaction.Custody
import Rtl8852be.Interaction.Components
import Rtl8852be.Dma.MacDmaBuffer
import Rtl8852be.Sequence.Insertion
import Rtl8852be.Sequence.Champion
import Rtl8852be.NativeScan.NativeScanCache
import Rtl8852be.NativeScan.Snapshots
import Rtl8852be.NativeScan.Contents
import Rtl8852be.NativeScan.NativeScanObservation
import Rtl8852be.NativeScan.Passes
import Rtl8852be.Interaction.Triple
import Rtl8852be.Firmware.FirmwareTransfer
import Rtl8852be.Firmware.TransferOrder
import Rtl8852be.Firmware.TransferContract
import Rtl8852be.Mailbox.FirmwareMailbox
import Rtl8852be.Mailbox.Operations
import Rtl8852be.Mailbox.Contract
import Rtl8852be.Sae.SaeExchange
import Rtl8852be.Sae.Steps
import Rtl8852be.Sae.Transcript
import Rtl8852be.Sae.Schedule
import Rtl8852be.Sae.Foreign
import Rtl8852be.Checked.Reader
import Rtl8852be.Sequence.Pieces
import Rtl8852be.Firmware.FirmwarePlan
import Rtl8852be.Firmware.Layout
import Rtl8852be.Firmware.Chunks
import Rtl8852be.Sequence.Overwrite
import Rtl8852be.Firmware.FirmwarePackets
import Rtl8852be.Firmware.PacketContents
import Rtl8852be.Firmware.FirmwareBank
import Rtl8852be.Firmware.BankContents
import Rtl8852be.ForegroundScan.NativeForegroundScan
import Rtl8852be.ForegroundScan.Lifecycle
import Rtl8852be.WclScan.NativeWclScan
import Rtl8852be.WclScan.Pipeline
import Rtl8852be.AuthEvents.AuthenticationEvents
import Rtl8852be.AuthEvents.Transcripts
import Rtl8852be.ScanProbe.NativeScanProbeTx
import Rtl8852be.ScanProbe.Ownership
import Rtl8852be.Selection.WirelessRequests
import Rtl8852be.Selection.Decoders
import Rtl8852be.WclResults.NativeWclBeacon
import Rtl8852be.WclResults.NativeWclScanResults
import Rtl8852be.WclResults.Delivery
import Rtl8852be.RadioBoot.RadioBootSequence
import Rtl8852be.RadioBoot.Operations
import Rtl8852be.RadioBoot.Sequencing
import Rtl8852be.SaeSession.SaeSession
import Rtl8852be.SaeSession.Acceptance
import Rtl8852be.Shims.ErrorLatch
import Rtl8852be.RfkIo.Lease
import Rtl8852be.Commands.Submission
import Rtl8852be.Queue.ReleaseReports
import Rtl8852be.Pci.StopProof
import Rtl8852be.Bits.Stream
import Rtl8852be.Tables.PacketPadding
import Rtl8852be.Bits.Layout
import Rtl8852be.Tables.StationTables
import Rtl8852be.Tables.Codec
import Rtl8852be.Wire.PhyReport
import Rtl8852be.Interaction.Holdings
import Rtl8852be.Bridge.Net80211PacketBridge
import Rtl8852be.Bridge.Preparation
import Rtl8852be.Efuse.EfuseReader
import Rtl8852be.Efuse.Transaction
import Rtl8852be.Firmware.TableOrder
import Rtl8852be.Selection.PersonalElement
import Rtl8852be.Interaction.Handler
import Rtl8852be.Radio.RadioTables
import Rtl8852be.Radio.TableGrammar
import Rtl8852be.Radio.TableRuns
import Rtl8852be.Radio.BasebandGain
import Rtl8852be.Radio.RadioFirmware
import Rtl8852be.Radio.RadioInitialization
import Rtl8852be.Radio.Loaders
import Rtl8852be.Bits.Records
import Rtl8852be.WclResults.BeaconBytes
import Rtl8852be.Checked.Elements
import Rtl8852be.NativeScan.Advertisements
import Rtl8852be.Checked.Writer
import Rtl8852be.Efuse.EfuseCalibration
import Rtl8852be.Bits.Flags
import Rtl8852be.Sequence.Orbit
import Rtl8852be.Pci.PciConfig
import Rtl8852be.LegacyAirport.LegacyScanResult
import Rtl8852be.Pci.LinkInitialization
import Rtl8852be.Pci.LinkCosts
import Rtl8852be.Pci.LinkRestoration
import Rtl8852be.Interaction.Environment
import Rtl8852be.Pci.PciRingSetup
import Rtl8852be.Pci.RingChecks
import Rtl8852be.Pci.RingRollback
import Rtl8852be.Firmware.FirmwareBoot
import Rtl8852be.Firmware.BootCleanup
import Rtl8852be.Interaction.Nesting
import Rtl8852be.RadioBoot.HookedSequence
import Rtl8852be.RadioBoot.FaultLatch
import Rtl8852be.TxPower.TxPowerPlan
import Rtl8852be.TxPower.Ceilings
import Rtl8852be.TxPower.Pages
import Rtl8852be.Dma.TxDmaBank
import Rtl8852be.TxPower.Completeness
import Rtl8852be.Rfk.Leases
import Rtl8852be.Rfk.Readiness
