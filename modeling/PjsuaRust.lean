import PjsuaRust.Transition.Machine
import PjsuaRust.Transition.Log
import PjsuaRust.Transition.Observe
import PjsuaRust.Serial.Basic
import PjsuaRust.Serial.UInt32
import PjsuaRust.Feed.Basic
import PjsuaRust.Feed.Chain
import PjsuaRust.Gates.Basic
import PjsuaRust.Gates.Restart
import PjsuaRust.Gates.Start
import PjsuaRust.Pjlib.Status
import PjsuaRust.Pjlib.Printf
import PjsuaRust.Pjlib.CString
import PjsuaRust.Pjlib.Numeral
import PjsuaRust.Passthrough.Config
import PjsuaRust.Passthrough.State
import PjsuaRust.Video.Config
import PjsuaRust.Video.Queue
import PjsuaRust.Video.PushFrame
import PjsuaRust.Video.Callbacks
import PjsuaRust.Passthrough.AnnexB
import PjsuaRust.Passthrough.Frame
import PjsuaRust.Passthrough.Device
import PjsuaRust.Passthrough.Codec
import PjsuaRust.Passthrough.Encode
import PjsuaRust.Passthrough.Init
import PjsuaRust.Passthrough.Reconfigure
import PjsuaRust.Passthrough.DefaultAttr
import PjsuaRust.Video.Install
import PjsuaRust.Video.Cleanup
import PjsuaRust.Passthrough.Factory
import PjsuaRust.Passthrough.Clock
import PjsuaRust.Video.Reconfigure
import PjsuaRust.Passthrough.Notifications
import PjsuaRust.Passthrough.Pairing
import PjsuaRust.Video.Discards
import PjsuaRust.Video.Bound
import PjsuaRust.Video.Ids
import PjsuaRust.Video.Locks
import PjsuaRust.Passthrough.EncodeBegin
import PjsuaRust.AnnexB.StartCode
import PjsuaRust.AnnexB.Split
import PjsuaRust.AnnexB.Join
import PjsuaRust.Passthrough.Scanners
import PjsuaRust.Passthrough.SingleNal
import PjsuaRust.Passthrough.Fate
import PjsuaRust.Passthrough.Decode
import PjsuaRust.Passthrough.Transport
import PjsuaRust.Passthrough.Sizes
import PjsuaRust.Pipeline.State
import PjsuaRust.Pipeline.Represents
import PjsuaRust.Pipeline.Calls
import PjsuaRust.Pipeline.Order
import PjsuaRust.Pipeline.Decodability
import PjsuaRust.Pipeline.Drain
import PjsuaRust.Pipeline.Requests
import PjsuaRust.Pipeline.EndToEnd
import PjsuaRust.Pipeline.Unaffected
import PjsuaRust.Concurrent.System
import PjsuaRust.Concurrent.Steps
import PjsuaRust.Concurrent.Refines
import PjsuaRust.Concurrent.Restart
import PjsuaRust.Concurrent.Calls
import PjsuaRust.Concurrent.Begin
import PjsuaRust.Trace.Message
import PjsuaRust.Trace.Text
import PjsuaRust.Trace.Utf8
import PjsuaRust.Trace.Headers
import PjsuaRust.Trace.Identity
import PjsuaRust.Trace.Event
import PjsuaRust.Trace.Extract
import PjsuaRust.Exclusion.Lock
import PjsuaRust.Exclusion.Order
import PjsuaRust.App.Lifecycle
import PjsuaRust.App.Singleton
import PjsuaRust.App.Events
import PjsuaRust.Trace.Stream
import PjsuaRust.App.New
import PjsuaRust.App.Player
import PjsuaRust.Media.Port
import PjsuaRust.Media.Conference
import PjsuaRust.Media.Destroy
import PjsuaRust.Passthrough.RemoteCaps
import PjsuaRust.Call.VideoState
import PjsuaRust.Sip.Grammar
import PjsuaRust.Account.Config
import PjsuaRust.Ownership.Scope
import PjsuaRust.Account.Populate
import PjsuaRust.App.Transport
import PjsuaRust.App.Copied
import PjsuaRust.Account.Uri
