import Boa.Range
import Boa.MmapCache
import Boa.Util
import Boa.Date
import Boa.Alias
import Boa.Cgi
import Boa.CgiHeader
import Boa.Get
import Boa.Header
import Boa.Read
import Boa.Pipe
import Boa.Process
import Boa.Output
import Boa.Effects
import Boa.Locate
import Boa.Parser
import Boa.Transfer
import Boa.Piping
import Boa.Rounds
import Boa.Runs
import Boa.Delivery
import Boa.Denied
import Boa.Access
import Boa.Relay
import Boa.Head
import Boa.Post
import Boa.MimeFile
import Boa.Reload
import Boa.Flight
import Boa.Poll
import Boa.Select
import Boa.Script
import Boa.HeaderRuns
import Boa.Once
import Boa.Pipeline
import Boa.Body
import Boa.Calls
import Boa.Environment
import Boa.Told
import Boa.ByteRanges
import Boa.RangeHeader
import Boa.Redirect
import Boa.Conditional
import Boa.Bounds
import Boa.Launch
import Boa.SList
import Boa.RangePool
import Boa.InFile
import Boa.Ranges
import Boa.Multipart
import Boa.Lookup
import Boa.PathBuffer
import Boa.PathInfo
import Boa.ConfigLine
import Boa.AddType
import Boa.Variables
import Boa.Ledger
import Boa.Handles
import Boa.PipeBounds
import Boa.HeaderLines
import Boa.CgiRedirect
import Boa.PercentCode
import Boa.Unescape
import Boa.Links
import Boa.Indexer
import Boa.Entities
import Boa.HtmlText
import Boa.DirectoryUrl
import Boa.InPlace
import Boa.UriBuffer
import Boa.Words
import Boa.Argv
import Boa.RequestLine
import Boa.CleanLines
import Boa.HostName
import Boa.Decimals
import Boa.PathSegments
import Boa.MimeTable
import Boa.LogCount
import Boa.HeaderText
import Boa.Answers
import Boa.Outcome
import Boa.Announced
import Boa.Framing
import Boa.Recycled
import Boa.Promise
import Boa.Blocks
import Boa.Segments
import Boa.Trees
import Boa.Contained
import Boa.Connections
import Boa.AccessLog
