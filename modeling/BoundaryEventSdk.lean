import BoundaryEventSdk.Java.Text
import BoundaryEventSdk.Java.UrlDecoder
import BoundaryEventSdk.Java.Utf16
import BoundaryEventSdk.Java.Words
import BoundaryEventSdk.Java.Outcome
import BoundaryEventSdk.Java.LinkedHashSet
import BoundaryEventSdk.Java.LinkedHashMap
import BoundaryEventSdk.Java.Equality
import BoundaryEventSdk.Messaging.Network
import BoundaryEventSdk.Event.Truncation
import BoundaryEventSdk.Event.TruncatedText
import BoundaryEventSdk.Event.Source
import BoundaryEventSdk.Event.RawEvent
import BoundaryEventSdk.Event.RawEventBuilder
import BoundaryEventSdk.Java.Heap
import BoundaryEventSdk.Event.ObjectGraph
import BoundaryEventSdk.Event.Atomicity
import BoundaryEventSdk.Event.ObjectMethods
import BoundaryEventSdk.Event.Reading
import BoundaryEventSdk.Event.EventCLI
import BoundaryEventSdk.Event.OptionFields
import BoundaryEventSdk.Event.EventPump
import BoundaryEventSdk.Event.CreateEvents
import BoundaryEventSdk.Event.StringLimit
import BoundaryEventSdk.Event.PropertyLimit
import BoundaryEventSdk.Snmp.HostLists
import BoundaryEventSdk.Snmp.OidMapList
import BoundaryEventSdk.Snmp.SnmpMetricCatalog
import BoundaryEventSdk.Snmp.CatalogLoad
import BoundaryEventSdk.Snmp.OidSelection
import BoundaryEventSdk.Snmp.OidLookup
import BoundaryEventSdk.Snmp.VariableBinding
import BoundaryEventSdk.Snmp.PollResponse
import BoundaryEventSdk.Snmp.CollectorNetwork
import BoundaryEventSdk.Snmp.SnmpTrap
import BoundaryEventSdk.Snmp.TrapName
import BoundaryEventSdk.Snmp.TrapFingerprint
import BoundaryEventSdk.Snmp.TrapProperties
import BoundaryEventSdk.Snmp.SnmpToEventProcessor
import BoundaryEventSdk.Snmp.V2TrapEvent
import BoundaryEventSdk.Snmp.FingerprintKeys
import BoundaryEventSdk.Snmp.MibExporter
import BoundaryEventSdk.Snmp.ExportAgreement
import BoundaryEventSdk.Snmp.MetricTexts
import BoundaryEventSdk.Service.ServiceTest
import BoundaryEventSdk.Service.ResultProcessors
import BoundaryEventSdk.Service.Recovery
import BoundaryEventSdk.Service.ServiceChecksDatabase
import BoundaryEventSdk.Service.RowCoverage
import BoundaryEventSdk.Service.CheckRoutes
import BoundaryEventSdk.Service.CheckNetwork
import BoundaryEventSdk.Service.CheckSequential
import BoundaryEventSdk.Service.UrlRow
import BoundaryEventSdk.Service.SendSSHServiceTests
import BoundaryEventSdk.Service.UrlVerdict
import BoundaryEventSdk.Syslog.SyslogToEvent
import BoundaryEventSdk.Camel.EndpointUri
import BoundaryEventSdk.Camel.RouteBuilders
import BoundaryEventSdk.Camel.RouteIds
import BoundaryEventSdk.Camel.UriRoundTrip
import BoundaryEventSdk.C.Substitute
import BoundaryEventSdk.C.Buffer
import BoundaryEventSdk.C.Strtol
import BoundaryEventSdk.C.MultiSz
import BoundaryEventSdk.Jsvc.Replace
import BoundaryEventSdk.Jsvc.PidFile
import BoundaryEventSdk.Jsvc.Arguments
import BoundaryEventSdk.Prunsrv.MultiSz
import BoundaryEventSdk.Prunsrv.Atoul
import BoundaryEventSdk.Prunsrv.Cmdline
import BoundaryEventSdk.Prunsrv.ListOptions
import BoundaryEventSdk.Prunsrv.Configuration
import BoundaryEventSdk.Prunsrv.ServiceRuns
import BoundaryEventSdk.Prunsrv.JvmOptions
import BoundaryEventSdk.Prunsrv.ProcessArguments
import BoundaryEventSdk.Prunsrv.JavaArguments
import BoundaryEventSdk.Prunsrv.StartParams
import BoundaryEventSdk.Jsvc.Controller
