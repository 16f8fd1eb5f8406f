import HoneyDew.PostgresWire

/-!
# The PostgreSQL and the QuestDB service

After the common start the PostgreSQL service records the password and turns
the client away. The QuestDB service records it, lets the client in and answers
its queries.
-/

namespace HoneyDew.PostgresServices

open CText CMemory Service PostgresWire

/-- `pg_parse_startup_username`. -/
def pgParseStartupUsername (buf : Bytes) (n : ℕ) : Option Bytes := parseStartupUsername buf n

/-- `qdb_parse_startup_username`. -/
def qdbParseStartupUsername (buf : Bytes) (n : ℕ) : Option Bytes := parseStartupUsername buf n

/-- `run_postgresql_service`, with the salt and the memory from `buf` on. -/
def runPostgresqlService (s : Session) (salt memory : Bytes) (results : List RecvResult) :
    List Action :=
  let started := startup memory results
  s.recordConnection .postgresql::(started.1++
    (match started.2 with
      | .ended => []
      | .accepted memory' n later =>
        let username := (pgParseStartupUsername memory' n).getD []
        .send (authMd5 salt)::
          match passwordMessage later with
          | none => []
          | some (passwordHash,_) =>
            [s.recordAuth .postgresql username (some passwordHash) false,
              .send (errorResponse "FATAL" "28P01"
                ((text "password authentication failed for user "++[34]++username++[34]).take 511))])++
    [s.recordDisconnect .postgresql,.close])

/-- `qdb_send_auth_ok`. -/
def qdbAuthOk : Bytes := text "R"++bigEndian32 8++bigEndian32 0

/-- `qdb_send_parameter_status`. -/
def qdbParameterStatus (name value : String) : Bytes :=
  text "S"++bigEndian32 (4+((text name).length+1)+((text value).length+1))++text name++[0]++
    text value++[0]

/-- `qdb_send_ready_for_query`. -/
def qdbReadyForQuery : Bytes := text "Z"++bigEndian32 5++text "I"

/-- The two sends of `qdb_send_empty_query_result`. -/
def qdbEmptyQueryResult (tag : String) : List Action :=
  [.send (text "T"++bigEndian32 6++[0,0]),
    .send (text "C"++bigEndian32 (4+((text tag).length+1))++text tag++[0])]

/-- `qdb_strip_crlf`. -/
def qdbStripCrlf (str : Bytes) : Bytes := stripCrlf str

/-- The text of a query message. -/
def qdbSql (bytes : Bytes) : Bytes :=
  if 5<bytes.length then qdbStripCrlf ((cstr (bytes.drop 5)).take 4095) else []

/-- The answer to a query, without the ready message. -/
def qdbAnswer (sql : Bytes) : List Action :=
  if startsNoCase sql "SELECT" then qdbEmptyQueryResult "SELECT 0"
  else if startsNoCase sql "INSERT" then qdbEmptyQueryResult "INSERT 0 1"
  else if startsNoCase sql "CREATE" then qdbEmptyQueryResult "CREATE TABLE"
  else if startsNoCase sql "SHOW" then qdbEmptyQueryResult "SHOW"
  else if startsNoCase sql "DROP" then
    [.send (errorResponse "ERROR" "42501" (text "permission denied"))]
  else [.send (errorResponse "ERROR" "42601" (text "syntax error"))]

/-- The answer to a query writes nothing. -/
theorem audits_qdbAnswer (sql : Bytes) : audits (qdbAnswer sql)=[] := by
  unfold qdbAnswer
  repeat' split
  all_goals rfl

/-- The message loop. -/
def qdbQueries (s : Session) : List RecvResult → List Action
  | [] => []
  | r::rs =>
    match recv 4096 r with
    | none => []
    | some bytes =>
      if bytes.head?=some 81 then
        s.recordCommand .questdb (qdbSql bytes)::
          (qdbAnswer (qdbSql bytes)++.send qdbReadyForQuery::qdbQueries s rs)
      else if bytes.head?=some 88 then []
      else if bytes.head?=some 80 then .send (text "1"++bigEndian32 4)::qdbQueries s rs
      else qdbQueries s rs

/-- What the client reads when it is let in. -/
def qdbWelcome : List Action :=
  [.send qdbAuthOk,.send (qdbParameterStatus "server_version" "QuestDB 7.3.10"),
    .send (qdbParameterStatus "server_encoding" "UTF8"),
    .send (qdbParameterStatus "client_encoding" "UTF8"),
    .send (qdbParameterStatus "DateStyle" "ISO, MDY"),.send qdbReadyForQuery]

/-- `run_questdb_service`, with the salt and the memory from `buf` on. -/
def runQuestdbService (s : Session) (salt memory : Bytes) (results : List RecvResult) :
    List Action :=
  let started := startup memory results
  s.recordConnection .questdb::(started.1++
    (match started.2 with
      | .ended => []
      | .accepted memory' n later =>
        let username := (qdbParseStartupUsername memory' n).getD []
        .send (authMd5 salt)::
          match passwordMessage later with
          | none => []
          | some (passwordHash,later') =>
            s.recordAuth .questdb username (some passwordHash) false::
              (qdbWelcome++qdbQueries s later'))++
    [s.recordDisconnect .questdb,.close])

end HoneyDew.PostgresServices
