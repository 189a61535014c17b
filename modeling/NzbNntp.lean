import NzbNntp.Capabilities.Lines
import NzbNntp.Pipeline.Overrun
import NzbNntp.Pipeline.Fifo
import NzbNntp.Pipeline.StatChecks
import NzbNntp.Connection.Course
import NzbNntp.Connection.StatusLine
import NzbNntp.Connection.HeaderData
import NzbNntp.Connection.ListActive
import NzbNntp.Connection.Postings
import NzbNntp.Pipeline.Stat
import NzbNntp.Overview.Wire
import NzbNntp.Overview.Format
import NzbNntp.Overview.Lenient
import NzbNntp.Connection.Negotiation
import NzbNntp.Connection.Login
import NzbNntp.Connection.Multiline
import NzbNntp.Connection.Calls
import NzbNntp.Pipeline.Accounting
import NzbNntp.Pipeline.Depth
import NzbNntp.Pipeline.Exclusive
import NzbNntp.Pipeline.Absorbing
import NzbNntp.Pipeline.Agreement
import NzbNntp.Pipeline.Refusals
import NzbNntp.Pipeline.SessionEnd
import NzbNntp.Pipeline.Content
import NzbNntp.Pipeline.MessageIds
import NzbNntp.Connection.Bounded
import NzbNntp.Connection.Failure
import NzbNntp.Connection.Fallback
import NzbNntp.Connection.Prefix
import NzbNntp.Connection.Queries
import NzbNntp.Connection.ProxyUrl
import NzbNntp.Connection.Fingerprint
import NzbNntp.Server.Penalties
import NzbNntp.Pool.Limit
import NzbNntp.Pool.Provenance
import NzbNntp.Pool.RampUp
import NzbNntp.Downloader.Reports
import NzbNntp.Downloader.Choice
import NzbNntp.Downloader.Penalty
import NzbNntp.Downloader.Counter
import NzbNntp.Server.Speed
import NzbNntp.Downloader.Statistics
import NzbNntp.Downloader.Winding
import NzbNntp.Mock.Secrecy
import NzbNntp.Mock.Attempts
import NzbNntp.Mock.Downloads
