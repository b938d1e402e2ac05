import HostServices.Lib.Actions
import HostServices.Lib.Base64
import HostServices.Lib.Bits
import HostServices.Lib.Blocks
import HostServices.Lib.Bytes
import HostServices.Lib.Columns
import HostServices.Lib.CommaList
import HostServices.Lib.Crc
import HostServices.Lib.Extremum
import HostServices.Lib.Fallible
import HostServices.Lib.FirstSeen
import HostServices.Lib.FromStr
import HostServices.Lib.Gaps
import HostServices.Lib.Hex
import HostServices.Lib.Int64Order
import HostServices.Lib.Intervals
import HostServices.Lib.IpText
import HostServices.Lib.LeastValue
import HostServices.Lib.Lines
import HostServices.Lib.Loop
import HostServices.Lib.Median
import HostServices.Lib.Mixing
import HostServices.Lib.Paths
import HostServices.Lib.Position
import HostServices.Lib.Protocol
import HostServices.Lib.Relay
import HostServices.Lib.Runs
import HostServices.Lib.Scanner
import HostServices.Lib.Sessions
import HostServices.Lib.Settings
import HostServices.Lib.Shell
import HostServices.Lib.Shuffle
import HostServices.Lib.SortedMap
import HostServices.Lib.Text
import HostServices.Lib.Urlencoded
import HostServices.Lib.Utf8
import HostServices.Bms.Accounting
import HostServices.Bms.Discover
import HostServices.Bms.Frame
import HostServices.Bms.Framing
import HostServices.Bms.Freshness
import HostServices.Bms.GivingUp
import HostServices.Bms.GreedyScan
import HostServices.Bms.Monitor
import HostServices.Bms.Parse
import HostServices.Bms.Port
import HostServices.Bms.Record
import HostServices.Bms.Session
import HostServices.Bms.Timeline
import HostServices.DetectedDevices.Ble
import HostServices.DetectedDevices.Blocks
import HostServices.DetectedDevices.Captures
import HostServices.DetectedDevices.Connectable
import HostServices.DetectedDevices.Security
import HostServices.DetectedDevices.ServiceUuids
import HostServices.DetectedDevices.Totals
import HostServices.DetectedDevices.Wifi
import HostServices.Doh.Stamp
import HostServices.Doh.StampEncode
import HostServices.Inverter.BitErrors
import HostServices.Inverter.Bookkeeping
import HostServices.Inverter.Discover
import HostServices.Inverter.Grammar
import HostServices.Inverter.Link
import HostServices.Inverter.Monitor
import HostServices.Inverter.Parse
import HostServices.Inverter.Port
import HostServices.Inverter.Protocol
import HostServices.Inverter.Record
import HostServices.Inverter.Session
import HostServices.Scripts.Failsafe
import HostServices.Scripts.GuardedBuild
import HostServices.Scripts.Monitoring
import HostServices.Scripts.Passphrase
import HostServices.Scripts.Portal
import HostServices.Scripts.Prebuild
import HostServices.Scripts.Restic
import HostServices.Scripts.Staleness
import HostServices.Scripts.Thingspeak
import HostServices.Scripts.UpgradePlan
import HostServices.Scripts.Watchdog
import HostServices.Serial.Enumerate
import HostServices.Serial.Exclusion
import HostServices.Serial.Order
import HostServices.SystemMetrics.BusPath
import HostServices.SystemMetrics.Chrony
import HostServices.SystemMetrics.Dnscrypt
import HostServices.SystemMetrics.MountTable
import HostServices.SystemMetrics.Mounts
import HostServices.SystemMetrics.Passes
import HostServices.SystemMetrics.Relevance
import HostServices.SystemMetrics.Sensors
import HostServices.SystemMetrics.Smart
import HostServices.SystemMetrics.UdevEnc
import HostServices.TimeCorrection.Agreement
import HostServices.TimeCorrection.AskPair
import HostServices.TimeCorrection.Choose
import HostServices.TimeCorrection.Deferred
import HostServices.TimeCorrection.Dns
import HostServices.TimeCorrection.Draw
import HostServices.TimeCorrection.EndToEnd
import HostServices.TimeCorrection.Evidence
import HostServices.TimeCorrection.Exchange
import HostServices.TimeCorrection.FirstPass
import HostServices.TimeCorrection.KeyExchange
import HostServices.TimeCorrection.Legs
import HostServices.TimeCorrection.Ntp
import HostServices.TimeCorrection.Nts
import HostServices.TimeCorrection.Options
import HostServices.TimeCorrection.Query
import HostServices.TimeCorrection.Quorum
import HostServices.TimeCorrection.Records
import HostServices.TimeCorrection.Run
import HostServices.TimeCorrection.SkipName
import HostServices.TimeCorrection.Windows
import HostServices.Tunnel.Delivery
import HostServices.Tunnel.Forward
import HostServices.Tunnel.Stream
