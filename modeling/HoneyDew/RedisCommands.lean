import HoneyDew.Service

/-!
# The command dispatcher of the Redis service

The dispatcher upper-cases the first argument, records the command, and
answers by the first name that matches in its chain of comparisons. Arguments
are the stored bytes of `argv`; every use reads them as C strings.
-/

namespace HoneyDew.RedisCommands

open CText Service

/-- A command as the parsers hand it to the dispatcher. -/
structure RedisCommand where
  /-- The arguments. -/
  argv : List Bytes
  /-- The dispatcher is called with at least one argument. -/
  argc_pos : argv≠[]
  /-- There are at most `REDIS_MAX_ARGS` arguments. -/
  argc_le : argv.length≤32
  /-- An argument and its NUL fit in `REDIS_MAX_ARG_LEN` bytes. -/
  arg_le : ∀ a∈argv,a.length≤1023

/-- The names that the dispatcher knows, in the order of its comparisons. -/
inductive RedisVerb
  | ping
  | info
  | config
  | set
  | get
  | keys
  | auth
  | slaveof
  | replicaof
  | eval
  | evalsha
  | flushall
  | flushdb
  | del
  | unlink
  | exists
  | ttl
  | pttl
  | type
  | dbsize
  | select
  | command
  | client
  | echo
  | save
  | bgsave
  | bgrewriteaof
  | shutdown
  | module
  | debug
  | quit
  deriving DecidableEq,Repr

namespace RedisVerb

/-- The name that the upper-cased first argument is compared with. -/
def name : RedisVerb → Bytes
  | .ping => text "PING"
  | .info => text "INFO"
  | .config => text "CONFIG"
  | .set => text "SET"
  | .get => text "GET"
  | .keys => text "KEYS"
  | .auth => text "AUTH"
  | .slaveof => text "SLAVEOF"
  | .replicaof => text "REPLICAOF"
  | .eval => text "EVAL"
  | .evalsha => text "EVALSHA"
  | .flushall => text "FLUSHALL"
  | .flushdb => text "FLUSHDB"
  | .del => text "DEL"
  | .unlink => text "UNLINK"
  | .exists => text "EXISTS"
  | .ttl => text "TTL"
  | .pttl => text "PTTL"
  | .type => text "TYPE"
  | .dbsize => text "DBSIZE"
  | .select => text "SELECT"
  | .command => text "COMMAND"
  | .client => text "CLIENT"
  | .echo => text "ECHO"
  | .save => text "SAVE"
  | .bgsave => text "BGSAVE"
  | .bgrewriteaof => text "BGREWRITEAOF"
  | .shutdown => text "SHUTDOWN"
  | .module => text "MODULE"
  | .debug => text "DEBUG"
  | .quit => text "QUIT"

/-- All names in the order of the comparisons. -/
def all : List RedisVerb :=
  [.ping,.info,.config,.set,.get,.keys,.auth,.slaveof,.replicaof,.eval,.evalsha,.flushall,
    .flushdb,.del,.unlink,.exists,.ttl,.pttl,.type,.dbsize,.select,.command,.client,.echo,.save,
    .bgsave,.bgrewriteaof,.shutdown,.module,.debug,.quit]

end RedisVerb

/-- `redis_str_toupper` into an array of `REDIS_MAX_ARG_LEN` bytes. -/
def redisStrToupper (src : Bytes) : Bytes := ((cstr src).take 1023).map toUpper

/-- `cmd->argv[i]`; arguments that were not given are zeroed arrays. -/
def arg (argv : List Bytes) (i : ℕ) : Bytes := cstr (argv.getD i [])

/-- The chain of `strcmp` tests on the upper-cased first argument. -/
def redisVerb (argv : List Bytes) : Option RedisVerb :=
  RedisVerb.all.find? (fun v => v.name=redisStrToupper (argv.getD 0 []))

/-- The loop that builds `full_cmd`: arguments with blanks between them, as
far as they fit in front of the final NUL. -/
def fullCmdFrom (i : ℕ) (built : Bytes) : List Bytes → Bytes
  | [] => built
  | a::argv =>
    if built.length<4095 then
      let spaced := if 0 < i then built++[32] else built
      fullCmdFrom (i+1) (spaced++(cstr a).take (4095-spaced.length)) argv
    else built

/-- The text that is logged and recorded for a command. -/
def fullCmd (argv : List Bytes) : Bytes := fullCmdFrom 0 [] argv

/-- `REDIS_FAKE_INFO`. -/
def redisFakeInfo : Bytes :=
  ["# Server","redis_version:6.2.6","redis_git_sha1:00000000","redis_git_dirty:0",
    "redis_build_id:a3fdef44459b3ad6","redis_mode:standalone","os:Linux 5.15.0-91-generic x86_64",
    "arch_bits:64","multiplexing_api:epoll","gcc_version:11.4.0","process_id:1","tcp_port:6379",
    "uptime_in_seconds:864213","uptime_in_days:10","hz:10","configured_hz:10","lru_clock:14523871",
    "executable:/usr/local/bin/redis-server","config_file:/etc/redis/redis.conf","",
    "# Clients","connected_clients:3","cluster_connections:0","maxclients:10000",
    "blocked_clients:0","","# Memory","used_memory:2097152","used_memory_human:2.00M",
    "used_memory_rss:4194304","used_memory_rss_human:4.00M","used_memory_peak:3145728",
    "used_memory_peak_human:3.00M","total_system_memory:8589934592",
    "total_system_memory_human:8.00G","maxmemory:0","maxmemory_human:0B",
    "maxmemory_policy:noeviction","","# Keyspace",
    "db0:keys=47,expires=12,avg_ttl=86400000"].flatMap replyLine

/-- `REDIS_FAKE_CONFIG`. -/
def redisFakeConfig : Bytes :=
  ["*20","$10","bind","$7","0.0.0.0","$4","port","$4","6379","$9","timeout","$1","0","$3","dir",
    "$8","/var/lib","$10","dbfilename","$8","dump.rdb","$12","requirepass","$0","","$10",
    "maxclients","$5","10000","$9","maxmemory","$1","0","$16","maxmemory-policy","$10",
    "noeviction","$9","loglevel","$6","notice"].flatMap replyLine

/-- `REDIS_FAKE_KEYS`. -/
def redisFakeKeys : Bytes :=
  ["*4","$14","session:abc123","$11","users:admin","$18","tokens:refresh_key","$20",
    "api_keys:production"].flatMap replyLine

/-- `redis_send_bulk_string`: the three sends of header, string and CR LF. -/
def redisSendBulkString (s : Bytes) : List Bytes :=
  [(text "$"++decimal (cstr s).length++crlf).take 63,cstr s,crlf]

/-- `redis_handle_info`. -/
def redisHandleInfo : List Bytes :=
  [(text "$"++decimal redisFakeInfo.length++crlf++redisFakeInfo++crlf).take 8191]

/-- The `CONFIG` branch. -/
def redisHandleConfig (argv : List Bytes) : List Bytes :=
  if 2≤argv.length then
    let sub := redisStrToupper (argv.getD 1 [])
    if sub=text "GET" then [redisFakeConfig]
    else if sub=text "SET" then [replyLine "+OK"]
    else if sub=text "RESETSTAT" then [replyLine "+OK"]
    else if sub=text "REWRITE" then [replyLine "+OK"]
    else [replyLine "-ERR Unknown subcommand or wrong number of arguments"]
  else [replyLine "-ERR wrong number of arguments for 'config' command"]

/-- The `CLIENT` branch. -/
def redisHandleClient (argv : List Bytes) : List Bytes :=
  if 2≤argv.length then
    let sub := redisStrToupper (argv.getD 1 [])
    if sub=text "SETNAME" then [replyLine "+OK"]
    else if sub=text "GETNAME" then [replyLine "$-1"]
    else if sub=text "LIST" then
      redisSendBulkString (replyLine "id=3 addr=127.0.0.1:6379 fd=8 name= db=0 cmd=client")
    else [replyLine "+OK"]
  else [replyLine "+OK"]

/-- The reply of a known name, as the list of sends. -/
def redisReply (argv : List Bytes) : RedisVerb → List Bytes
  | .ping => if 2≤argv.length then redisSendBulkString (argv.getD 1 []) else [replyLine "+PONG"]
  | .info => redisHandleInfo
  | .config => redisHandleConfig argv
  | .set => [replyLine "+OK"]
  | .get => [replyLine "$-1"]
  | .keys => [redisFakeKeys]
  | .auth => [text "-ERR Client sent AUTH, but no password is set. "++
      replyLine "Did you mean ACL SETUSER with >password?"]
  | .slaveof | .replicaof => [replyLine "+OK"]
  | .eval | .evalsha => [replyLine "-NOSCRIPT No matching script. Please use EVAL."]
  | .flushall | .flushdb => [replyLine "+OK"]
  | .del | .unlink => [replyLine ":0"]
  | .exists => [replyLine ":0"]
  | .ttl | .pttl => [replyLine ":-2"]
  | .type => [replyLine "+none"]
  | .dbsize => [replyLine ":47"]
  | .select => [replyLine "+OK"]
  | .command => [replyLine "*0"]
  | .client => redisHandleClient argv
  | .echo =>
    if 2≤argv.length then redisSendBulkString (argv.getD 1 [])
    else [replyLine "-ERR wrong number of arguments for 'echo' command"]
  | .save | .bgsave | .bgrewriteaof => [replyLine "+OK"]
  | .shutdown => [replyLine "+OK"]
  | .module => [replyLine "-ERR Error loading shared library: No such file or directory"]
  | .debug => [replyLine "-ERR DEBUG command not allowed"]
  | .quit => [replyLine "+OK"]

/-- The `snprintf` calls that append the quoted arguments to `err_resp`. -/
def appendQuoted (errResp : Bytes) : List Bytes → Bytes
  | [] => errResp
  | a::argv => appendQuoted (errResp++(text "'"++cstr a++text "' ").take (511-errResp.length)) argv

/-- The error line of an unknown command in its array of 512 bytes. -/
def redisUnknown (argv : List Bytes) : Bytes :=
  let errResp := appendQuoted
    ((text "-ERR unknown command '"++arg argv 0++text "', with args beginning with: ").take 511)
    ((argv.drop 1).take 3)
  if errResp.length+2<512 then errResp++crlf else errResp

/-- The sends of `redis_dispatch_command`. -/
def redisReplies (argv : List Bytes) : List Bytes :=
  match redisVerb argv with
  | some verb => redisReply argv verb
  | none => [redisUnknown argv]

/-- The return value of `redis_dispatch_command`: close the connection. -/
def redisCloses (argv : List Bytes) : Bool :=
  redisVerb argv=some .shutdown || redisVerb argv=some .quit

/-- The acts of `redis_dispatch_command`. -/
def redisDispatchCommand (s : Session) (argv : List Bytes) : List Action :=
  if argv=[] then [] else
    s.recordCommand .redis (fullCmd argv)::
      ((if redisVerb argv=some .auth ∧ 2≤argv.length then
          [s.recordAuth .redis [] (some (arg argv 1)) false] else [])++
        (redisReplies argv).map Action.send)

end HoneyDew.RedisCommands
