import HoneyDew.LoggerJson
import HoneyDew.LogFile
import HoneyDew.FlatObject
import HoneyDew.Mealy
import HoneyDew.ReplyLines

/-!
# The logger and its streams

Every call that passes the level goes to one line of the structured log or to one coloured
line for the operator, and to the log file if there is one. Whatever a peer brings into a
message, its line of the structured log is read back with the fields of the call and a
front of the message. A line feed in a message splits its line of the log file.
-/

namespace HoneyDew.StructuredLog

open CText CMemory LoggerJson FlatObject Mealy TextLines ReplyLines
open LogFile (UtilitiesLogLevel LogState utilitiesLogLevelCloudwatch passesFilter fileLine)

/-! ## The code -/

/-- `level_color`. -/
def levelColor : UtilitiesLogLevel → Bytes
  | .verbose => 27::text "[35m"
  | .debug => 27::text "[36m"
  | .info => 27::text "[32m"
  | .warn => 27::text "[33m"
  | .error => 27::text "[31m"

/-- `utilities_log_level_str`. -/
def utilitiesLogLevelStr : UtilitiesLogLevel → Bytes
  | .verbose => text "详细"
  | .debug => text "调试"
  | .info => text "信息"
  | .warn => text "警告"
  | .error => text "错误"

/-- `utilities_set_log_level` on the current level. -/
def utilitiesSetLogLevel (current : UtilitiesLogLevel) : Option Bytes → UtilitiesLogLevel
  | none => current
  | some level =>
    if cstr level=text "详细" ∨ cstr level=text "VERBOSE" then .verbose
    else if cstr level=text "调试" ∨ cstr level=text "DEBUG" then .debug
    else if cstr level=text "信息" ∨ cstr level=text "INFO" then .info
    else if cstr level=text "警告" ∨ cstr level=text "WARN" then .warn
    else if cstr level=text "错误" ∨ cstr level=text "ERROR" then .error
    else current

/-- A call of `utilities_log` and what it finds. -/
structure LogCall where
  /-- The level of the call. -/
  level : UtilitiesLogLevel
  /-- The text that the format and its arguments make. -/
  formatted : Bytes
  /-- What `current_timestamp_iso8601` gives. -/
  isoTime : Bytes
  /-- What `current_timestamp_display` gives. -/
  displayTime : Bytes
  /-- What `current_timestamp_iso8601` gives for the log file. -/
  fileTime : Bytes
  /-- What `gethostname` gives. -/
  hostname : Option Bytes
  /-- What `getpid` gives. -/
  pid : ℕ
  /-- What `pthread_self` gives. -/
  tid : ℕ
  /-- The bytes from `escaped_msg` on. -/
  stack : Bytes
  deriving DecidableEq,Repr

namespace LogCall

/-- `message`. -/
def message (c : LogCall) : Bytes := (cstr c.formatted).take 4095

/-- `escaped_msg`. -/
def escapedMsg (c : LogCall) : Bytes :=
  cstr (escapeJsonString (c.message++[0]) c.stack utilitiesLogBufferSize)

/-- The text in `hostname`. -/
def hostnameText (c : LogCall) : Bytes :=
  match c.hostname with
  | some name => (cstr name).take 255
  | none => text "unknown"

/-- The line of the structured log. -/
def jsonLine (c : LogCall) : Bytes :=
  text "\x7b\"timestamp\":\""++c.isoTime++text "\",\"level\":\""++
    utilitiesLogLevelCloudwatch c.level++text "\",\"level_cn\":\""++utilitiesLogLevelStr c.level++
    text "\",\"application\":\""++text "HoneyDew"++text "\",\"version\":\""++text "1.0.0"++
    text "\",\"hostname\":\""++c.hostnameText++text "\",\"pid\":"++decimal c.pid++
    text ",\"tid\":"++decimal c.tid++text ",\"message\":\""++c.escapedMsg++text "\"\x7d"

/-- The line for the operator. -/
def displayLine (c : LogCall) : Bytes :=
  27::text "[90m"++text "["++c.displayTime++text "] ["++levelColor c.level++
    utilitiesLogLevelStr c.level++27::text "[0m"++text "] "++c.message++27::text "[0m"

end LogCall

/-- The settings of the logger and its file. -/
structure Logger where
  /-- The current level, the log file and the files. -/
  file : LogState
  /-- `utilities_cloudwatch_mode`. -/
  cloudwatchMode : Bool
  /-- Whether `s_error_callback` is set. -/
  errorCallback : Bool

/-- The settings at the start. -/
def Logger.initial : Logger := ⟨.initial .verbose (fun _ => []),false,false⟩

/-- What leaves the logger otherwise. -/
inductive LogEffect
  /-- Bytes for the standard output. -/
  | stdout (bytes : Bytes)
  /-- Bytes for the standard error stream. -/
  | stderr (bytes : Bytes)
  /-- A call of the error callback. -/
  | callback (message : Bytes)
  deriving DecidableEq,Repr

/-- The call is not filtered out. -/
def passes (s : Logger) (c : LogCall) : Bool := passesFilter s.file c.level

/-- `utilities_log`: the file and what is put out otherwise. -/
def utilitiesLog (s : Logger) (c : LogCall) : Logger×List LogEffect :=
  ({s with file := LogFile.utilitiesLog s.file c.level c.fileTime c.formatted},
    if passes s c then
      (if s.cloudwatchMode then [.stdout (c.jsonLine++[10])] else [.stderr (c.displayLine++[10])])++
        if c.level=.error ∧ s.errorCallback=true then [.callback c.message] else []
    else [])

/-- One call of the logger. -/
inductive LogOp
  /-- `utilities_set_log_level`. -/
  | setLevel (level : Option Bytes)
  /-- `utilities_enable_cloudwatch_mode`. -/
  | enableCloudwatch (enable : Bool)
  /-- `utilities_enable_file_logging`, and whether `fopen` succeeds. -/
  | enableFile (path : Option Bytes) (opened : Bool)
  /-- `utilities_register_error_callback`, and whether the pointer is not null. -/
  | registerCallback (given : Bool)
  /-- `utilities_log`. -/
  | log (c : LogCall)
  deriving DecidableEq,Repr

/-- One call, under the mutex of the logger. -/
def logStep (s : Logger) : LogOp → Logger×List LogEffect
  | .setLevel level =>
    ({s with file := {s.file with
      utilitiesCurrentLevel := utilitiesSetLogLevel s.file.utilitiesCurrentLevel level}},[])
  | .enableCloudwatch enable => ({s with cloudwatchMode := enable},[])
  | .enableFile path opened =>
    ({s with file := LogFile.utilitiesEnableFileLogging s.file path opened},[])
  | .registerCallback given => ({s with errorCallback := given},[])
  | .log c => utilitiesLog s c

/-- The bytes on the standard output. -/
def stdoutText (effects : List LogEffect) : Bytes :=
  effects.flatMap (fun | .stdout bytes => bytes | _ => [])

/-! ## The calls that a stream should show -/

/-- A call that goes to the structured log. -/
def structured (s : Logger) : LogOp → Option LogCall
  | .log c => if passes s c ∧ s.cloudwatchMode=true then some c else none
  | _ => none

/-- A call that goes to the file of a path. -/
def filed (path : Bytes) (s : Logger) : LogOp → Option LogCall
  | .log c => if passes s c ∧ s.file.sLogFile=some path then some c else none
  | _ => none

section Streams

variable (s : Logger) (ops : List LogOp)

/-- The standard output has one line for every call of the structured log. -/
theorem stdoutText_run : stdoutText (feed logStep s ops).2=
    (selected logStep structured s ops).flatMap (fun c => c.jsonLine++[10]) := by
  refine flatMap_output logStep ?_ s ops
  intro q op
  cases op with
  | log c =>
    dsimp only [logStep,structured,utilitiesLog]
    by_cases hpasses : passes q c=true
    · rw [if_pos hpasses]
      cases hmode : q.cloudwatchMode <;>
        by_cases herror : c.level=.error ∧ q.errorCallback=true <;> simp [hpasses,herror]
    · rw [if_neg hpasses,if_neg (fun h => hpasses h.1)]
      rfl
  | setLevel level => rfl
  | enableCloudwatch enable => rfl
  | enableFile path opened => rfl
  | registerCallback given => rfl

/-- A call of the logger appends to the file of a path if it goes there. -/
theorem files_step (path : Bytes) (op : LogOp) :
    (logStep s op).1.file.files path=s.file.files path++
      (filed path s op).toList.flatMap (fun c => fileLine c.fileTime c.level c.formatted) := by
  cases op with
  | log c =>
    have hfilter : passesFilter s.file c.level=passes s c := rfl
    dsimp only [logStep,filed,utilitiesLog,LogFile.utilitiesLog]
    rw [hfilter]
    by_cases hpasses : passes s c=true
    · rw [if_neg (by rw [hpasses]; exact Bool.noConfusion)]
      cases hopen : s.file.sLogFile with
      | none =>
        dsimp only
        rw [if_neg (fun h => nomatch h.2)]
        exact (List.append_nil _).symm
      | some p =>
        dsimp only
        by_cases hp : p=path
        · rw [hp,Function.update_self,if_pos ⟨hpasses,rfl⟩,Option.toList_some,List.flatMap_singleton]
        · rw [Function.update_of_ne (fun heq => hp heq.symm),
            if_neg (fun h => hp (Option.some.inj h.2))]
          exact (List.append_nil _).symm
    · rw [if_pos (Bool.eq_false_of_not_eq_true hpasses),if_neg (fun h => hpasses h.1)]
      exact (List.append_nil _).symm
  | enableFile p opened =>
    have hkept : (logStep s (.enableFile p opened)).1.file.files=s.file.files := by
      dsimp only [logStep,LogFile.utilitiesEnableFileLogging]
      cases p with
      | none => rfl
      | some p =>
        dsimp only
        split <;> rfl
    rw [hkept]
    exact (List.append_nil _).symm
  | setLevel level => exact (List.append_nil _).symm
  | enableCloudwatch enable => exact (List.append_nil _).symm
  | registerCallback given => exact (List.append_nil _).symm

/-- A run appends a line for every call that goes there. -/
theorem files_run (path : Bytes) : (feed logStep s ops).1.file.files path=s.file.files path++
    (selected logStep (filed path) s ops).flatMap
      (fun c => fileLine c.fileTime c.level c.formatted) := by
  induction ops generalizing s with
  | nil => exact (List.append_nil _).symm
  | cons op ops ih => rw [feed_cons,selected,ih,files_step,List.flatMap_append,List.append_assoc]

end Streams

/-! ## Reading the structured log -/

/-- What a line of the structured log says. -/
structure Entry where
  /-- The text of the time. -/
  time : Bytes
  /-- The name of the level. -/
  level : Bytes
  /-- The Chinese name of the level. -/
  levelCn : Bytes
  /-- The name of the application. -/
  application : Bytes
  /-- Its version. -/
  version : Bytes
  /-- The name of the host. -/
  hostname : Bytes
  /-- The number of the process. -/
  pid : ℕ
  /-- The number of the thread. -/
  tid : ℕ
  /-- The message. -/
  message : Bytes
  deriving DecidableEq,Repr

/-- The byte that a letter behind a backslash stands for. -/
def unescapeLetter (letter : Byte) : Byte :=
  if letter=110 then 10 else if letter=114 then 13 else if letter=116 then 9 else letter

/-- A text without its escapes. -/
def unstored : Bytes → Bytes
  | [] => []
  | [b] => [b]
  | b::c::rest => if b=92 then unescapeLetter c::unstored rest else b::unstored (c::rest)

/-- The text of a name. -/
def strField (fields : Fields) (name : String) : Option Bytes :=
  match fields.find? (fun field => field.1=text name) with
  | some (_,.str body) => some body
  | _ => none

/-- The number of a name. -/
def numField (fields : Fields) (name : String) : Option ℕ :=
  match fields.find? (fun field => field.1=text name) with
  | some (_,.num digits) => some (digitsValue 0 digits)
  | _ => none

/-- Read the fields of a line, in any order. -/
def entryOf (fields : Fields) : Option Entry := do
  let time ← strField fields "timestamp"
  let level ← strField fields "level"
  let levelCn ← strField fields "level_cn"
  let application ← strField fields "application"
  let version ← strField fields "version"
  let hostname ← strField fields "hostname"
  let pid ← numField fields "pid"
  let tid ← numField fields "tid"
  let message ← strField fields "message"
  some ⟨time,level,levelCn,application,version,hostname,pid,tid,unstored message⟩

/-- Read a line of the structured log. -/
def readEntry (line : Bytes) : Option Entry := (readObject line).bind entryOf

namespace LogCall

/-- The front of the message for which the array of the escaped text has room. -/
def shownMessage (c : LogCall) : Bytes := takenUp (utilitiesLogBufferSize-2) 0 c.message

/-- What the line of a call should say. -/
def entry (c : LogCall) : Entry :=
  ⟨c.isoTime,utilitiesLogLevelCloudwatch c.level,utilitiesLogLevelStr c.level,text "HoneyDew",
    text "1.0.0",c.hostnameText,c.pid,c.tid,c.shownMessage⟩

/-- The times and the host name are free of quotes, backslashes and line feeds, and the
array is there. The formatted text may be anything. -/
structure Proper (c : LogCall) : Prop where
  /-- The time. -/
  time : ∀ b∈c.isoTime,b≠34 ∧ b≠92 ∧ b≠10
  /-- The time in the file. -/
  fileTime : (10 : Byte)∉c.fileTime
  /-- The host name, which is not escaped. -/
  host : ∀ b∈c.hostnameText,b≠34 ∧ b≠92 ∧ b≠10
  /-- The array of the escaped text. -/
  array : utilitiesLogBufferSize≤c.stack.length

/-- The fields of the line of a call. -/
def fields (c : LogCall) : Fields :=
  [(text "level",.str (utilitiesLogLevelCloudwatch c.level)),
    (text "level_cn",.str (utilitiesLogLevelStr c.level)),
    (text "application",.str (text "HoneyDew")),(text "version",.str (text "1.0.0")),
    (text "hostname",.str c.hostnameText),(text "pid",.num (decimal c.pid)),
    (text "tid",.num (decimal c.tid)),(text "message",.str c.escapedMsg)]

end LogCall

section Texts

/-- A byte is stored as a letter behind a backslash or as it is. -/
theorem stored_cases (b : Byte) :
    (∃ letter,stored b=[92,letter] ∧ unescapeLetter letter=b ∧ letter≠10) ∨
      stored b=[b] ∧ b≠34 ∧ b≠92 ∧ b≠10 := by
  unfold stored
  by_cases hquote : b=34
  · rw [if_pos hquote,hquote]
    exact Or.inl ⟨34,rfl,by decide,by decide⟩
  by_cases hbackslash : b=92
  · rw [if_neg hquote,if_pos hbackslash,hbackslash]
    exact Or.inl ⟨92,rfl,by decide,by decide⟩
  by_cases hlf : b=10
  · rw [if_neg hquote,if_neg hbackslash,if_pos hlf,hlf]
    exact Or.inl ⟨110,rfl,by decide,by decide⟩
  by_cases hcr : b=13
  · rw [if_neg hquote,if_neg hbackslash,if_neg hlf,if_pos hcr,hcr]
    exact Or.inl ⟨114,rfl,by decide,by decide⟩
  by_cases htab : b=9
  · rw [if_neg hquote,if_neg hbackslash,if_neg hlf,if_neg hcr,if_pos htab,htab]
    exact Or.inl ⟨116,rfl,by decide,by decide⟩
  rw [if_neg hquote,if_neg hbackslash,if_neg hlf,if_neg hcr,if_neg htab]
  exact Or.inr ⟨rfl,hquote,hbackslash,hlf⟩

/-- A stored byte is closed, takes a place and brings no line feed. -/
theorem closed_stored (b : Byte) : Closed (stored b) ∧ 0<(stored b).length ∧ (10 : Byte)∉stored b := by
  rcases stored_cases b with ⟨letter,hstored,_,hlf⟩|⟨hstored,hquote,hbackslash,hlf⟩
  · rw [hstored]
    refine ⟨.escaped .nil,Nat.zero_lt_succ 1,?_⟩
    rw [List.mem_cons,List.mem_singleton,not_or]
    exact ⟨by decide,fun heq => hlf heq.symm⟩
  · rw [hstored]
    refine ⟨.plain hquote hbackslash .nil,Nat.zero_lt_one,?_⟩
    rw [List.mem_singleton]
    exact fun heq => hlf heq.symm

/-- A stored byte in front of a text. -/
theorem unstored_stored (b : Byte) (rest : Bytes) : unstored (stored b++rest)=b::unstored rest := by
  rcases stored_cases b with ⟨letter,hstored,hletter,_⟩|⟨hstored,_,hbackslash,_⟩
  · rw [hstored,List.cons_append,List.singleton_append,unstored,if_pos rfl,hletter]
  · rw [hstored,List.singleton_append]
    cases rest with
    | nil => rfl
    | cons c rest => rw [unstored,if_neg hbackslash]

/-- A stored text comes back. -/
theorem unstored_flatMap (bs : Bytes) : unstored (bs.flatMap stored)=bs := by
  induction bs with
  | nil => rfl
  | cons b bs ih => rw [List.flatMap_cons,unstored_stored,ih]

/-- A message has no NUL. -/
theorem zero_not_mem_message (c : LogCall) : (0 : Byte)∉c.message :=
  fun hzero => zero_not_mem_cstr _ (List.mem_of_mem_take hzero)

/-- The escaped text is the stored form of the shown message. -/
theorem escapedMsg_eq {c : LogCall} (hc : c.Proper) : c.escapedMsg=c.shownMessage.flatMap stored := by
  have hnul := zero_not_mem_message c
  have hcall := (escapeJsonString_eq (by decide) (by decide) hnul [] hc.array).1
  obtain ⟨rest,hsplit,_⟩ := takenUp_append (utilitiesLogBufferSize-2) 0 c.message
  have hclean : (0 : Byte)∉c.shownMessage.flatMap stored := by
    intro hzero
    obtain ⟨b,hb,hstored⟩ := List.mem_flatMap.mp hzero
    refine zero_not_mem_stored ?_ hstored
    intro heq
    rw [heq] at hb
    refine hnul ?_
    rw [hsplit]
    exact List.mem_append_left _ hb
  rw [LogCall.escapedMsg,hcall]
  exact cstr_terminated hclean _

/-- The shown message is a front of the message, and all of it where its stored form fits. -/
theorem shownMessage_front (c : LogCall) : c.shownMessage<+:c.message ∧
    ((c.message.flatMap stored).length≤4094 → c.shownMessage=c.message) := by
  obtain ⟨rest,hsplit,hrest⟩ := takenUp_append (utilitiesLogBufferSize-2) 0 c.message
  refine ⟨⟨rest,hsplit.symm⟩,?_⟩
  intro hfits
  by_cases hnil : rest=[]
  · rw [hnil,List.append_nil] at hsplit
    exact hsplit.symm
  · exfalso
    have hbound := hrest hnil
    have hpositive : 0<(rest.flatMap stored).length := by
      obtain ⟨b,more,rfl⟩ := List.exists_cons_of_ne_nil hnil
      have hone := (closed_stored b).2.1
      rw [List.flatMap_cons,List.length_append]
      omega
    have hlimit : utilitiesLogBufferSize-2=4094 := rfl
    rw [hsplit,List.flatMap_append,List.length_append] at hfits
    omega

/-- The names of the levels are free of quotes, backslashes and line feeds. -/
theorem levelNames_free (level : UtilitiesLogLevel) :
    (utilitiesLogLevelCloudwatch level).all (fun b => b≠34 && b≠92 && b≠10)=true ∧
      (utilitiesLogLevelStr level).all (fun b => b≠34 && b≠92 && b≠10)=true := by
  cases level <;> decide

end Texts

section Lines

/-- The line of a call is an object. -/
theorem jsonLine_eq (c : LogCall) :
    c.jsonLine=renderObject (text "timestamp",.str c.isoTime) c.fields := by
  have htime : text "\x7b\"timestamp\":\""=123::34::(text "timestamp"++[34,58,34]) := by decide
  have hlevel : text "\",\"level\":\""=34::44::34::(text "level"++[34,58,34]) := by decide
  have hlevelCn : text "\",\"level_cn\":\""=34::44::34::(text "level_cn"++[34,58,34]) := by decide
  have happlication : text "\",\"application\":\""=
      34::44::34::(text "application"++[34,58,34]) := by decide
  have hversion : text "\",\"version\":\""=34::44::34::(text "version"++[34,58,34]) := by decide
  have hhost : text "\",\"hostname\":\""=34::44::34::(text "hostname"++[34,58,34]) := by decide
  have hpid : text "\",\"pid\":"=34::44::34::(text "pid"++[34,58]) := by decide
  have htid : text ",\"tid\":"=44::34::(text "tid"++[34,58]) := by decide
  have hmessage : text ",\"message\":\""=44::34::(text "message"++[34,58,34]) := by decide
  have hend : text "\"\x7d"=[34,125] := by decide
  unfold LogCall.jsonLine
  rw [htime,hlevel,hlevelCn,happlication,hversion,hhost,hpid,htid,hmessage,hend]
  simp only [renderObject,LogCall.fields,renderMore,renderField,Value.render,List.append_assoc,
    List.cons_append,List.nil_append]

variable {c : LogCall} (hc : c.Proper)

/-- A text that is tested byte by byte is free of quotes, backslashes and line feeds. -/
theorem free_of_all {bs : Bytes} (h : bs.all (fun b => b≠34 && b≠92 && b≠10)=true) :
    ∀ b∈bs,b≠34 ∧ b≠92 ∧ b≠10 := by
  intro b hb
  have htest := List.all_eq_true.mp h b hb
  simpa [and_assoc] using htest

/-- A text free of quotes and backslashes is closed. -/
theorem closed_of_proper {bs : Bytes} (h : ∀ b∈bs,b≠34 ∧ b≠92 ∧ b≠10) : Closed bs :=
  closed_of_free (fun b hb => ⟨(h b hb).1,(h b hb).2.1⟩)

/-- The digits of a number are read back. -/
theorem good_decimal (n : ℕ) : (Value.num (decimal n)).Good :=
  ⟨decimal_ne_nil n,fun _ hb => isDigit_of_mem_decimal hb⟩

include hc

/-- The fields of a call are read back. -/
theorem good_fields : ∀ field∈c.fields,GoodField field := by
  have hlevel := free_of_all (levelNames_free c.level).1
  have hlevelCn := free_of_all (levelNames_free c.level).2
  have hmessage : Closed c.escapedMsg := by
    rw [escapedMsg_eq hc]
    exact closed_flatMap (fun b => (closed_stored b).1) _
  have hname : ∀ {name : String},(text name).all (fun b => b≠34 && b≠92 && b≠10)=true →
      Closed (text name) := fun h => closed_of_proper (free_of_all h)
  unfold LogCall.fields
  simp only [List.mem_cons,List.not_mem_nil,or_false,forall_eq_or_imp,forall_eq]
  exact ⟨⟨hname rfl,closed_of_proper hlevel⟩,⟨hname rfl,closed_of_proper hlevelCn⟩,
    ⟨hname rfl,hname rfl⟩,⟨hname rfl,hname rfl⟩,⟨hname rfl,closed_of_proper hc.host⟩,
    ⟨hname rfl,good_decimal c.pid⟩,⟨hname rfl,good_decimal c.tid⟩,⟨hname rfl,hmessage⟩⟩

/-- The line of a call says what it should. -/
theorem readEntry_jsonLine : readEntry c.jsonLine=some c.entry := by
  have htime : GoodField (text "timestamp",.str c.isoTime) :=
    ⟨closed_of_proper (free_of_all rfl),closed_of_proper hc.time⟩
  rw [jsonLine_eq,readEntry,readObject_render htime (good_fields hc),Option.bind_some]
  have hentry : entryOf ((text "timestamp",.str c.isoTime)::c.fields)=
      some ⟨c.isoTime,utilitiesLogLevelCloudwatch c.level,utilitiesLogLevelStr c.level,
        text "HoneyDew",text "1.0.0",c.hostnameText,digitsValue 0 (decimal c.pid),
        digitsValue 0 (decimal c.tid),unstored c.escapedMsg⟩ := rfl
  rw [hentry,digitsValue_decimal_self,digitsValue_decimal_self,escapedMsg_eq hc,unstored_flatMap]
  rfl

/-- The line of a call is one line. -/
theorem newline_not_mem_jsonLine : (10 : Byte)∉c.jsonLine := by
  have hlevel := free_of_all (levelNames_free c.level).1
  have hlevelCn := free_of_all (levelNames_free c.level).2
  have hmessage : (10 : Byte)∉c.escapedMsg := by
    rw [escapedMsg_eq hc]
    intro hmem
    obtain ⟨b,_,hstored⟩ := List.mem_flatMap.mp hmem
    exact (closed_stored b).2.2 hstored
  have hdecimal : ∀ n,(10 : Byte)∉decimal n := by
    intro n hmem
    exact absurd (isDigit_of_mem_decimal hmem) (by decide)
  unfold LogCall.jsonLine
  simp only [List.mem_append,not_or]
  exact ⟨⟨⟨⟨⟨⟨⟨⟨⟨⟨⟨⟨⟨⟨⟨⟨⟨⟨by decide,fun h => (hc.time 10 h).2.2 rfl⟩,by decide⟩,
    fun h => (hlevel 10 h).2.2 rfl⟩,by decide⟩,fun h => (hlevelCn 10 h).2.2 rfl⟩,by decide⟩,by decide⟩,
    by decide⟩,by decide⟩,by decide⟩,fun h => (hc.host 10 h).2.2 rfl⟩,by decide⟩,hdecimal _⟩,by decide⟩,
    hdecimal _⟩,by decide⟩,hmessage⟩,by decide⟩

end Lines

/-- The calls found in a run are calls of it. -/
theorem proper_selected {test : Logger → LogOp → Option LogCall} {s : Logger} {ops : List LogOp}
    (htest : ∀ q op c,test q op=some c → op=.log c) (hops : ∀ c,.log c∈ops → c.Proper) :
    ∀ c∈selected logStep test s ops,c.Proper := by
  intro c hc
  obtain ⟨q,op,hop,hfound⟩ := mem_of_selected logStep hc
  rw [htest q op c hfound] at hop
  exact hops c hop

/-- The calls of the structured log are calls. -/
theorem structured_log (q : Logger) (op : LogOp) (c : LogCall) (h : structured q op=some c) :
    op=.log c := by
  cases op with
  | log c' =>
    rw [structured] at h
    split at h
    · rw [Option.some.inj h]
    · cases h
  | _ => cases h

/-- The calls of a file are calls. -/
theorem filed_log (path : Bytes) (q : Logger) (op : LogOp) (c : LogCall) (h : filed path q op=some c) :
    op=.log c := by
  cases op with
  | log c' =>
    rw [filed] at h
    split at h
    · rw [Option.some.inj h]
    · cases h
  | _ => cases h

/-- However the settings change, the standard output is whole lines, one for every call of
the structured log in the order of the calls, and each is read back with its level, its
times and numbers and a front of its message: all of it, if its escaped form has at most 4094
bytes. No message can end its line or its text. -/
theorem structured_log_read_back (s : Logger) (ops : List LogOp) (hops : ∀ c,.log c∈ops → c.Proper) :
    let calls := selected logStep structured s ops
    let stream := stdoutText (feed logStep s ops).2
    WholeLines 10 stream ∧ (lines 10 stream).map readEntry=calls.map (fun c => some c.entry) ∧
      ∀ c∈calls,c.shownMessage<+:c.message ∧
        ((c.message.flatMap stored).length≤4094 → c.shownMessage=c.message) := by
  intro calls stream
  have hproper : ∀ c∈calls,c.Proper := proper_selected structured_log hops
  have hstream : stream=calls.flatMap (fun c => c.jsonLine++[10]) := stdoutText_run s ops
  clear_value calls stream
  have hlines : lines 10 stream=calls.map LogCall.jsonLine := by
    rw [hstream]
    exact (lines_terminated 10 LogCall.jsonLine calls).mpr
      (fun c hc => newline_not_mem_jsonLine (hproper c hc))
  refine ⟨?_,?_,fun c _ => shownMessage_front c⟩
  · rw [hstream]
    exact wholeLines_terminated LogCall.jsonLine calls
  · rw [hlines,List.map_map]
    refine List.map_congr_left ?_
    intro c hc
    rw [Function.comp_apply,readEntry_jsonLine (hproper c hc)]

/-- A message with a quote and a line feed, logged behind one that the level filters out. -/
def quotingOps : List LogOp :=
  [.enableCloudwatch true,.setLevel (some (text "WARN")),
    .log ⟨.info,text "quiet",text "t1",text "t1",text "t1",none,7,8,List.replicate 4096 170⟩,
    .log ⟨.error,text "user=\"a"++[10]++text "b\"",text "t2",text "t2",text "t2",none,7,8,
      List.replicate 4096 170⟩]

/-- The message with a quote and a line feed is one line of the structured log. -/
theorem structured_log_quoting :
    ((lines 10 (stdoutText (feed logStep .initial quotingOps).2)).map readEntry).map
        (fun found => found.map Entry.message)=
      [some (text "user=\"a"++[10]++text "b\"")] := by
  have hproper : ∀ c,.log c∈quotingOps → c.Proper := by
    intro c hc
    simp only [quotingOps,List.mem_cons,List.not_mem_nil,or_false,reduceCtorEq,false_or,LogOp.log.injEq] at hc
    have harray : utilitiesLogBufferSize≤(List.replicate 4096 (170 : Byte)).length := by
      rw [List.length_replicate]
      exact Nat.le_refl _
    rcases hc with rfl|rfl
    · exact ⟨free_of_all rfl,by decide,free_of_all rfl,harray⟩
    · exact ⟨free_of_all rfl,by decide,free_of_all rfl,harray⟩
  have hread := structured_log_read_back .initial quotingOps hproper
  rw [hread.2.1]
  rfl

/-- The line of a call in a log file. -/
def plainLine (c : LogCall) : Bytes :=
  text "["++c.fileTime++text "] ["++utilitiesLogLevelCloudwatch c.level++text "] "++c.message

/-- The lines appended to a log file are those of the calls that go there exactly when no
message brings a line feed. -/
theorem file_log_lines_iff (s : Logger) (ops : List LogOp) (path : Bytes)
    (hops : ∀ c,.log c∈ops → c.Proper) :
    let calls := selected logStep (filed path) s ops
    ∃ appended,(feed logStep s ops).1.file.files path=s.file.files path++appended ∧
      (lines 10 appended=calls.map plainLine ↔ ∀ c∈calls,(10 : Byte)∉c.message) := by
  intro calls
  have hproper : ∀ c∈calls,c.Proper := proper_selected (filed_log path) hops
  refine ⟨_,files_run s ops path,?_⟩
  change lines 10 (calls.flatMap (fun c => plainLine c++[10]))=_ ↔ _
  clear_value calls
  rw [lines_terminated]
  refine forall₂_congr (fun c hc => ?_)
  have hlevel := free_of_all (levelNames_free c.level).1
  unfold plainLine
  simp only [List.mem_append,not_or]
  constructor
  · exact fun h => h.2
  · exact fun h => ⟨⟨⟨⟨⟨by decide,(hproper c hc).fileTime⟩,by decide⟩,
      fun hmem => (hlevel 10 hmem).2.2 rfl⟩,by decide⟩,h⟩

/-- A message that brings a line of its own. -/
def forgingOps : List LogOp :=
  [.enableFile (some (text "dew.log")) true,
    .log ⟨.info,text "user=a"++[10]++text "[t2] [ERROR] forged",text "t1",text "t1",text "t1",none,7,8,
      List.replicate 4096 170⟩]

/-- The message with a line feed is two lines of the log file. -/
theorem file_log_forged :
    ∃ appended,(feed logStep .initial forgingOps).1.file.files (text "dew.log")=[]++appended ∧
      lines 10 appended≠
        (selected logStep (filed (text "dew.log")) .initial forgingOps).map plainLine := by
  have hproper : ∀ c,.log c∈forgingOps → c.Proper := by
    intro c hc
    simp only [forgingOps,List.mem_cons,List.not_mem_nil,or_false,reduceCtorEq,false_or,LogOp.log.injEq] at hc
    have harray : utilitiesLogBufferSize≤(List.replicate 4096 (170 : Byte)).length := by
      rw [List.length_replicate]
      exact Nat.le_refl _
    rw [hc]
    exact ⟨free_of_all rfl,by decide,free_of_all rfl,harray⟩
  obtain ⟨appended,hfile,hlines⟩ := file_log_lines_iff .initial forgingOps (text "dew.log") hproper
  refine ⟨appended,hfile,?_⟩
  intro heq
  refine hlines.mp heq _ List.mem_cons_self ?_
  decide

end HoneyDew.StructuredLog
