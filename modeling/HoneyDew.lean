import HoneyDew.StepSystem
import HoneyDew.SessionTable
import HoneyDew.ConnectionLifecycle
import HoneyDew.Shutdown
import HoneyDew.CMemory
import HoneyDew.Connection
import HoneyDew.PeerAddress
import HoneyDew.AuditTrail
import HoneyDew.TextLines
import HoneyDew.AuditLog
import HoneyDew.RespReply
import HoneyDew.RedisCommands
import HoneyDew.RedisReplies
import HoneyDew.RedisParser
import HoneyDew.RedisUnread
import HoneyDew.RedisStream
import HoneyDew.EventWords
import HoneyDew.FtpService
import HoneyDew.TelnetService
import HoneyDew.SshService
import HoneyDew.MysqlService
import HoneyDew.PostgresServices
import HoneyDew.DnsService
import HoneyDew.MailServices
import HoneyDew.AuditBracket
import HoneyDew.AuthOutcome
import HoneyDew.RedisFraming
import HoneyDew.RedisOutOfStep
import HoneyDew.DnsReplies
import HoneyDew.DnsWire
import HoneyDew.DnsWellFormed
import HoneyDew.MysqlDenial
import HoneyDew.PostgresStartup
import HoneyDew.FtpSegments
import HoneyDew.PostgresMessages
import HoneyDew.PostgresStreams
import HoneyDew.ConnSemaphore
import HoneyDew.LinkedChain
import HoneyDew.SessionHeap
import HoneyDew.PairLines
import HoneyDew.SmtpService
import HoneyDew.SmtpFraming
import HoneyDew.Pipelining
import HoneyDew.ByteQueue
import HoneyDew.Reassembly
import HoneyDew.HttpService
import HoneyDew.LockOrder
import HoneyDew.Locking
import HoneyDew.MysqlCounter
import HoneyDew.RedisDecoding
import HoneyDew.RedisUnknownReply
import HoneyDew.DnsQueries
import HoneyDew.DnsFraming
import HoneyDew.TelnetDecoding
import HoneyDew.TelnetDownloads
import HoneyDew.Base64
import HoneyDew.SmtpBase64
import HoneyDew.SmtpCredentials
import HoneyDew.ImapArguments
import HoneyDew.MysqlGreeting
import HoneyDew.PostgresParameters
import HoneyDew.FtpRuns
import HoneyDew.FtpAliases
import HoneyDew.FtpLineEnds
import HoneyDew.SshTerminal
import HoneyDew.JsonString
import HoneyDew.LoggerJson
import HoneyDew.LoggerAssembly
import HoneyDew.AuditSlots
import HoneyDew.HostKey
import HoneyDew.LogFile
import HoneyDew.RedisFullCmd
import HoneyDew.SessionIds
import HoneyDew.Attribution
import HoneyDew.FtpDirectory
import HoneyDew.FtpReplies
import HoneyDew.Producers
import HoneyDew.SessionLog
import HoneyDew.LogReader
import HoneyDew.MailSessions
import HoneyDew.Mealy
import HoneyDew.SmtpDialogue
import HoneyDew.AuditDrain
import HoneyDew.FlatObject
import HoneyDew.PostgresClients
import HoneyDew.StructuredLog
import HoneyDew.ClosingActs
import HoneyDew.MysqlStream
import HoneyDew.SessionNames
import HoneyDew.Balance
import HoneyDew.ListenerThread
