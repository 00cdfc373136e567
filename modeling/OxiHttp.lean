import OxiHttp.Utf8
import OxiHttp.BigEndian
import OxiHttp.Socks5
import OxiHttp.LittleEndian
import OxiHttp.Crc32
import OxiHttp.Gzip
import OxiHttp.Deflate
import OxiHttp.Sha1
import OxiHttp.Base64
import OxiHttp.Positions
import OxiHttp.RecordStream
import OxiHttp.ByteStream
import OxiHttp.Pieces
import OxiHttp.SortBy
import OxiHttp.FieldList
import OxiHttp.UnixPath
import OxiHttp.IpAddr
import OxiHttp.Text
import OxiHttp.Decimal
import OxiHttp.Binary32
import OxiHttp.TextParse
import OxiHttp.ByteRange
import OxiHttp.SingleRange
import OxiHttp.Gregorian
import OxiHttp.HttpDate
import OxiHttp.CivilDays
import OxiHttp.DateFormat
import OxiHttp.DateExact
import OxiHttp.Http
import OxiHttp.HostText
import OxiHttp.Query
import OxiHttp.Form
import OxiHttp.QueryDecode
import OxiHttp.UriReference
import OxiHttp.KeyedList
import OxiHttp.Cookie
import OxiHttp.SetCookieText
import OxiHttp.CookieJar
import OxiHttp.CookieScope
import OxiHttp.DomainMatch
import OxiHttp.CookieRuns
import OxiHttp.CookieHeader
import OxiHttp.CookieLifetime
import OxiHttp.CookieReturn
import OxiHttp.Redirect
import OxiHttp.Proxy
import OxiHttp.ProxyConnect
import OxiHttp.Socks5Connector
import OxiHttp.Socks5Requests
import OxiHttp.Socks5Consent
import OxiHttp.RedirectTarget
import OxiHttp.FieldParameters
import OxiHttp.Mime
import OxiHttp.Multipart
import OxiHttp.MimeLines
import OxiHttp.MultipartDecode
import OxiHttp.MultipartStream
import OxiHttp.PartHeaders
import OxiHttp.MultipartAgree
import OxiHttp.MultipartFailure
import OxiHttp.StaticFile
import OxiHttp.ConditionalGet
import OxiHttp.FileBody
import OxiHttp.ServeDir
import OxiHttp.AcceptEncoding
import OxiHttp.Weighted
import OxiHttp.AcceptText
import OxiHttp.EncodingRefusal
import OxiHttp.UnicodeText
import OxiHttp.ContentType
import OxiHttp.AcceptSafety
import OxiHttp.AcceptNegotiation
import OxiHttp.Compression
import OxiHttp.RequestBuilder
import OxiHttp.SendInner
import OxiHttp.RedirectChain
import OxiHttp.RedirectBudget
import OxiHttp.RedirectMethod
import OxiHttp.Retry
import OxiHttp.AttemptBudget
import OxiHttp.StreamingBody
import OxiHttp.GzipBody
import OxiHttp.GzipHeader
import OxiHttp.BodyLimit
import OxiHttp.GzipMembers
import OxiHttp.DeflateBody
import OxiHttp.BodyBytes
import OxiHttp.TokenLevel
import OxiHttp.RateLimiter
import OxiHttp.RateBound
import OxiHttp.RateIdeal
import OxiHttp.EventStream
import OxiHttp.Sse
import OxiHttp.SseRoundTrip
import OxiHttp.Router
import OxiHttp.RoutePattern
import OxiHttp.VirtualHost
import OxiHttp.RouterNesting
import OxiHttp.RouterHandlers
import OxiHttp.RouterResolve
import OxiHttp.TypeMap
import OxiHttp.RouterState
import OxiHttp.Cors
import OxiHttp.Middleware
import OxiHttp.ServerBodyLimit
import OxiHttp.ServerRateLimit
import OxiHttp.Shutdown
import OxiHttp.WsFrame
import OxiHttp.WsFrameStream
import OxiHttp.WsCanonical
import OxiHttp.WsSocket
import OxiHttp.WsReassembly
import OxiHttp.WsDelivery
import OxiHttp.WsWire
import OxiHttp.WsClosing
import OxiHttp.WsSend
import OxiHttp.WsConversation
import OxiHttp.WsProtocolError
import OxiHttp.WsHandshake
import OxiHttp.Observed
import OxiHttp.WsWatched
import OxiHttp.WsMemory
import OxiHttp.RateBuckets
import OxiHttp.CalendarInverse
import OxiHttp.FileStream
import OxiHttp.BasicAuth
import OxiHttp.BoundarySearch
import OxiHttp.CorsVary
import OxiHttp.ContentTypeText
import OxiHttp.ForwardedKey
import OxiHttp.Interleaving
import OxiHttp.Mpsc
import OxiHttp.SseChannel
import OxiHttp.SseDisconnect
import OxiHttp.ConnectionLimit
import OxiHttp.TowerLayers
import OxiHttp.ClientSession
import OxiHttp.SendRuns
import OxiHttp.LinkedTree
import OxiHttp.ServeDirLinks
import OxiHttp.Revalidation
import OxiHttp.FileRevalidation
import OxiHttp.SharedCache
import OxiHttp.SharedResponses
import OxiHttp.Duplex
import OxiHttp.Socks5Tunnel
import OxiHttp.ConnectTunnel
import OxiHttp.CookieSession
import OxiHttp.Resumption
import OxiHttp.ResumedDownload
