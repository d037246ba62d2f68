import Nawa.Config.Config
import Nawa.Config.Document
import Nawa.Config.Ini
import Nawa.Connection.ApplyFilters
import Nawa.Connection.Connection
import Nawa.Connection.Cookie
import Nawa.Connection.PathAccess
import Nawa.Connection.Precedence
import Nawa.Connection.Response
import Nawa.Connection.SendFile
import Nawa.Connection.SessionCookie
import Nawa.Filter.AccessFilter
import Nawa.Hashing.Argon2
import Nawa.Hashing.Bcrypt
import Nawa.Hashing.BlowfishTables
import Nawa.Hashing.CryptBlowfish
import Nawa.Hashing.Crypto
import Nawa.Laws.Config.Config
import Nawa.Laws.Config.Ini
import Nawa.Laws.Config.WellFormed
import Nawa.Laws.Connection.BasicAuth
import Nawa.Laws.Connection.Cookies
import Nawa.Laws.Connection.ForwardFilter
import Nawa.Laws.Connection.Keepalive
import Nawa.Laws.Connection.PathAccess
import Nawa.Laws.Connection.Precedence
import Nawa.Laws.Connection.Respelling
import Nawa.Laws.Connection.Response
import Nawa.Laws.Connection.ResponseText
import Nawa.Laws.Connection.SendFile
import Nawa.Laws.Connection.SessionCookie
import Nawa.Laws.Connection.StartSession
import Nawa.Laws.Connection.Visit
import Nawa.Laws.Filter.FileExtension
import Nawa.Laws.Hashing.Argon2
import Nawa.Laws.Hashing.Bcrypt
import Nawa.Laws.Hashing.BlowfishKeys
import Nawa.Laws.Hashing.BlowfishSelfTest
import Nawa.Laws.Hashing.CryptBlowfish
import Nawa.Laws.Logging.Instances
import Nawa.Laws.Logging.Messages
import Nawa.Laws.Mail.Email
import Nawa.Laws.Mail.EmailAddress
import Nawa.Laws.Mail.MimeEmail
import Nawa.Laws.Mail.MimePartOrList
import Nawa.Laws.Mail.SmtpMailer
import Nawa.Laws.Mail.Validity
import Nawa.Laws.Nawarun.CommandLine
import Nawa.Laws.Nawarun.Lifetimes
import Nawa.Laws.Nawarun.Overrides
import Nawa.Laws.Nawarun.Privileges
import Nawa.Laws.Nawarun.Reload
import Nawa.Laws.Request.Submission
import Nawa.Laws.RequestHandler.ApplyFilters
import Nawa.Laws.RequestHandler.Authentication
import Nawa.Laws.RequestHandler.Environment
import Nawa.Laws.RequestHandler.Generations
import Nawa.Laws.RequestHandler.Http
import Nawa.Laws.RequestHandler.Lifecycle
import Nawa.Laws.RequestHandler.PostBody
import Nawa.Laws.RequestHandler.PostData
import Nawa.Laws.RequestHandler.RemoteAddr
import Nawa.Laws.RequestHandler.RequestHandler
import Nawa.Laws.RequestHandler.SameEnvironment
import Nawa.Laws.Session.Frame
import Nawa.Laws.Session.GarbageCollection
import Nawa.Laws.Session.Interleaving
import Nawa.Laws.Session.Outcomes
import Nawa.Laws.Session.Removal
import Nawa.Laws.Session.SafeStart
import Nawa.Laws.Session.SessionData
import Nawa.Laws.Session.SourceIP
import Nawa.Laws.Session.Start
import Nawa.Laws.Util.Base64
import Nawa.Laws.Util.Bytes
import Nawa.Laws.Util.Calendar
import Nawa.Laws.Util.DateText
import Nawa.Laws.Util.EncodedWord
import Nawa.Laws.Util.Encoding
import Nawa.Laws.Util.HeaderBlock
import Nawa.Laws.Util.HeaderFields
import Nawa.Laws.Util.Html
import Nawa.Laws.Util.HtmlEncode
import Nawa.Laws.Util.HtmlEntities
import Nawa.Laws.Util.HtmlRoundTrip
import Nawa.Laws.Util.HtmlValid
import Nawa.Laws.Util.HttpDate
import Nawa.Laws.Util.HttpTime
import Nawa.Laws.Util.MimeCalls
import Nawa.Laws.Util.MimeMultipart
import Nawa.Laws.Util.MimeOffsets
import Nawa.Laws.Util.Paths
import Nawa.Laws.Util.Punycode
import Nawa.Laws.Util.QueryString
import Nawa.Laws.Util.QuotedPrintable
import Nawa.Laws.Util.Separators
import Nawa.Laws.Util.SmtpTime
import Nawa.Laws.Util.StringReplace
import Nawa.Laws.Util.UrlEncoding
import Nawa.Laws.Util.Utils
import Nawa.Lib.AssocMap
import Nawa.Lib.Calendar
import Nawa.Lib.Chunks
import Nawa.Lib.Distinct
import Nawa.Lib.FirstMatch
import Nawa.Lib.LexicalPath
import Nawa.Lib.Lifetime
import Nawa.Lib.Lines
import Nawa.Lib.Marked
import Nawa.Lib.MatchIterator
import Nawa.Lib.Multimap
import Nawa.Lib.Owners
import Nawa.Lib.PackedWords
import Nawa.Lib.Regex
import Nawa.Lib.Search
import Nawa.Lib.Tokens
import Nawa.Lib.Transition
import Nawa.Lib.Utf8
import Nawa.Logging.Log
import Nawa.Mail.Email
import Nawa.Mail.EmailAddress
import Nawa.Mail.MimeEmail
import Nawa.Mail.MimePartOrList
import Nawa.Mail.SmtpMailer
import Nawa.Nawarun.CommandLine
import Nawa.Nawarun.Lifetimes
import Nawa.Nawarun.Privileges
import Nawa.Nawarun.Reload
import Nawa.Request.Request
import Nawa.RequestHandler.Authentication
import Nawa.RequestHandler.Fastcgi
import Nawa.RequestHandler.FastcgiRequest
import Nawa.RequestHandler.Generations
import Nawa.RequestHandler.Http
import Nawa.RequestHandler.IpAddress
import Nawa.RequestHandler.Lifecycle
import Nawa.RequestHandler.RequestHandler
import Nawa.Session.Calls
import Nawa.Session.Interleaving
import Nawa.Session.Session
import Nawa.Session.SessionData
import Nawa.Util.Bytes
import Nawa.Util.Encoding
import Nawa.Util.Html
import Nawa.Util.HtmlEntities
import Nawa.Util.Http
import Nawa.Util.HttpTime
import Nawa.Util.MimeMultipart
import Nawa.Util.MimeOffsets
import Nawa.Util.Punycode
import Nawa.Util.QueryString
import Nawa.Util.SmtpTime
import Nawa.Util.Stod
import Nawa.Util.Utils
