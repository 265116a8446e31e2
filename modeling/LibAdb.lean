import LibAdb.Base.Protocol
import LibAdb.Base.Config
import LibAdb.Base.SendQueue
import LibAdb.Base.ChannelTable
import LibAdb.Base.Window
import LibAdb.Base.Codec
import LibAdb.Base.Wire.Recv
import LibAdb.Base.Wire.Range
import LibAdb.Base.Negotiated
import LibAdb.Base.Wire.Send
import LibAdb.Split.Shared
import LibAdb.Split.Use
import LibAdb.Split.Writer
import LibAdb.Split.Accept
import LibAdb.Split.Reader
import LibAdb.Split.System
import LibAdb.Lib.Tasks
import LibAdb.Split.Quiet
import LibAdb.Split.WriteHalf
import LibAdb.Split.Debts
import LibAdb.Lib.Purse
import LibAdb.Split.Credit
import LibAdb.Split.Closing
import LibAdb.Base.Handles
import LibAdb.Base.Banner
import LibAdb.Lib.Slices
import LibAdb.Shell.Decoder
import LibAdb.Base.Handshake
import LibAdb.Base.Wire.Bulk
import LibAdb.Base.Connection
import LibAdb.Sync.RecvBuf
import LibAdb.Sync.Session
import LibAdb.Sync.Replies
import LibAdb.Logcat.Format
import LibAdb.Logcat.Reading
import LibAdb.Split.Requests
import LibAdb.Split.Budget
import LibAdb.Split.CreditMoves
import LibAdb.Split.Ledger
import LibAdb.Progress
import LibAdb.Base.ReadToEnd
import LibAdb.Lib.LeBytes
import LibAdb.Pairing.Spake2
import LibAdb.Keys.Store
import LibAdb.Base.Observed
import LibAdb.Base.Writing
import LibAdb.Keys.Record
import LibAdb.Keys.PublicKey
import LibAdb.Lib.Crc
import LibAdb.Base.Destination
import LibAdb.Cmd
import LibAdb.Shell.Destination
import LibAdb.Base.Protobuf
import LibAdb.Shell.Sending
import LibAdb.Sync.Push
import LibAdb.Sync.Sending
import LibAdb.TrackApp.Reading
import LibAdb.Base.BannerText
import LibAdb.Base.FairQueue
import LibAdb.Lib.Numerals
import LibAdb.Reverse
import LibAdb.Split.Waiting
import LibAdb.Transport.Uri
import LibAdb.Base.Requests
import LibAdb.Transport.Tls
import LibAdb.Transport.TlsRead
import LibAdb.Lib.Traced
import LibAdb.OneShot
import LibAdb.Split.Withdrawal
import LibAdb.Split.Signals
import LibAdb.Split.Wakeups
import LibAdb.Split.Streams
import LibAdb.Lib.Stops
import LibAdb.Pairing.Frame
import LibAdb.Pairing.Client
