import HoneyDew.CText
import Mathlib.Logic.Function.Basic

/-!
# The log file of the logger

Switching the log file closes the open one before the new one is opened. A failed open
leaves no file, while the flag and the path keep what the last success set. A message
is appended to the file that is open when it is logged, and to none without one.
-/

namespace HoneyDew.LogFile

open CText

/-! ## The code -/

/-- `UtilitiesLogLevel`. -/
inductive UtilitiesLogLevel
  | verbose
  | debug
  | info
  | warn
  | error
  deriving DecidableEq,Repr

/-- The value of the enumerator. -/
def UtilitiesLogLevel.toInt : UtilitiesLogLevel → ℕ
  | .verbose => 0
  | .debug => 1
  | .info => 2
  | .warn => 3
  | .error => 4

/-- `utilities_log_level_cloudwatch`. -/
def utilitiesLogLevelCloudwatch : UtilitiesLogLevel → Bytes
  | .verbose => text "VERBOSE"
  | .debug => text "DEBUG"
  | .info => text "INFO"
  | .warn => text "WARN"
  | .error => text "ERROR"

/-- The variables of the logger that decide about the file, and the files. -/
structure LogState where
  /-- `s_log_file`: the path of the file that the stream appends to. -/
  sLogFile : Option Bytes
  /-- `utilities_file_logging`. -/
  utilitiesFileLogging : Bool
  /-- `utilities_log_file_path`. -/
  utilitiesLogFilePath : Option Bytes
  /-- `utilities_current_level`. -/
  utilitiesCurrentLevel : UtilitiesLogLevel
  /-- What stands in the files, by path. -/
  files : Bytes → Bytes

/-- The variables as they are initialized, with a level and any files. -/
def LogState.initial (level : UtilitiesLogLevel) (files : Bytes → Bytes) : LogState :=
  ⟨none,false,none,level,files⟩

/-- `utilities_enable_file_logging`; `opens` tells whether `fopen` succeeds. -/
def utilitiesEnableFileLogging (s : LogState) (filePath : Option Bytes) (opens : Bool) : LogState :=
  match filePath with
  | none => s
  | some path =>
    let closed := {s with sLogFile := none}
    if opens=true then
      {closed with
        sLogFile := some path
        utilitiesFileLogging := true
        utilitiesLogFilePath := some path}
    else closed

/-- The level filter of `utilities_log`. -/
def passesFilter (s : LogState) (level : UtilitiesLogLevel) : Bool :=
  !(level.toInt<s.utilitiesCurrentLevel.toInt && level≠.error)

/-- The line for a message in the file; `message` has room for 4095 bytes. -/
def fileLine (timestamp : Bytes) (level : UtilitiesLogLevel) (formatted : Bytes) : Bytes :=
  text "["++timestamp++text "] ["++utilitiesLogLevelCloudwatch level++text "] "++
    (cstr formatted).take 4095++[10]

/-- What `utilities_log` does to the file: a message that passes the filter is appended
to the open one. -/
def utilitiesLog (s : LogState) (level : UtilitiesLogLevel) (timestamp formatted : Bytes) : LogState :=
  if passesFilter s level=false then s
  else match s.sLogFile with
    | some path =>
      let file := s.files path++fileLine timestamp level formatted
      {s with files := Function.update s.files path file}
    | none => s

/-- A call of the logger. -/
inductive LogCall
  /-- `utilities_enable_file_logging`, with the outcome of `fopen`. -/
  | enable (filePath : Option Bytes) (opens : Bool)
  /-- `utilities_log`, with the time of day. -/
  | log (level : UtilitiesLogLevel) (timestamp formatted : Bytes)

/-- One call. -/
def logStep (s : LogState) : LogCall → LogState
  | .enable filePath opens => utilitiesEnableFileLogging s filePath opens
  | .log level timestamp formatted => utilitiesLog s level timestamp formatted

/-- The calls one after the other. -/
def runCalls (s : LogState) (calls : List LogCall) : LogState := calls.foldl logStep s

/-! ## The law about histories -/

/-- The path after one more call, if the call enables a file. -/
def enabledBy (last : Option Bytes) : LogCall → Option Bytes
  | .enable (some path) true => some path
  | _ => last

/-- The file that was enabled most recently with success. -/
def lastEnabled (calls : List LogCall) : Option Bytes := calls.foldl enabledBy none

/-- In every state of a history the flag is set exactly when a file is open, and a message
that passes the filter after a success goes to the file enabled last and to no other. -/
def SafeHistory (s : LogState) (calls : List LogCall) : Prop :=
  ∀ front back,calls=front++back →
    ((runCalls s front).utilitiesFileLogging=true ↔ (runCalls s front).sLogFile≠none) ∧
      ∀ level timestamp formatted rest path,back=.log level timestamp formatted::rest →
        passesFilter (runCalls s front) level=true → lastEnabled front=some path →
          (runCalls s (front++[.log level timestamp formatted])).files=
            Function.update (runCalls s front).files path
              ((runCalls s front).files path++fileLine timestamp level formatted)

/-- No attempt to open a file fails after one has succeeded. -/
def NoLateFailure (calls : List LogCall) : Prop :=
  ∀ front path back,calls=front++.enable (some path) false::back → lastEnabled front=none

/-- The state after one more call. -/
theorem runCalls_snoc (s : LogState) (calls : List LogCall) (call : LogCall) :
    runCalls s (calls++[call])=logStep (runCalls s calls) call := by
  rw [runCalls,runCalls,List.foldl_append]
  rfl

/-- The file enabled last after one more call. -/
theorem lastEnabled_snoc (calls : List LogCall) (call : LogCall) :
    lastEnabled (calls++[call])=enabledBy (lastEnabled calls) call := by
  rw [lastEnabled,lastEnabled,List.foldl_append]
  rfl

/-- A message changes neither the stream nor the flag nor the path. -/
theorem utilitiesLog_frame (s : LogState) (level : UtilitiesLogLevel) (timestamp formatted : Bytes) :
    (utilitiesLog s level timestamp formatted).sLogFile=s.sLogFile ∧
      (utilitiesLog s level timestamp formatted).utilitiesFileLogging=s.utilitiesFileLogging ∧
      (utilitiesLog s level timestamp formatted).utilitiesLogFilePath=s.utilitiesLogFilePath := by
  unfold utilitiesLog
  split
  · exact ⟨rfl,rfl,rfl⟩
  · split <;> exact ⟨rfl,rfl,rfl⟩

/-- Flag and path always tell of the file enabled last, whether or not it is open. -/
theorem flag_eq (level : UtilitiesLogLevel) (files : Bytes → Bytes) (calls : List LogCall) :
    (runCalls (.initial level files) calls).utilitiesFileLogging=(lastEnabled calls).isSome ∧
      (runCalls (.initial level files) calls).utilitiesLogFilePath=lastEnabled calls := by
  induction calls using List.reverseRecOn with
  | nil => exact ⟨rfl,rfl⟩
  | append_singleton calls call ih =>
    rw [runCalls_snoc,lastEnabled_snoc]
    cases call with
    | enable filePath opens =>
      cases filePath with
      | none => exact ih
      | some path =>
        cases opens with
        | false => exact ih
        | true => exact ⟨rfl,rfl⟩
    | log level' timestamp formatted =>
      have hframe := utilitiesLog_frame (runCalls (.initial level files) calls) level' timestamp formatted
      rw [logStep,hframe.2.1,hframe.2.2]
      exact ih

/-- Without a late failure the open file is the one enabled last. -/
theorem sLogFile_eq (level : UtilitiesLogLevel) (files : Bytes → Bytes) {calls : List LogCall}
    (h : NoLateFailure calls) :
    (runCalls (.initial level files) calls).sLogFile=lastEnabled calls := by
  induction calls using List.reverseRecOn with
  | nil => rfl
  | append_singleton calls call ih =>
    have hfront : NoLateFailure calls := by
      intro front path back hsplit
      refine h front path (back++[call]) ?_
      rw [hsplit,List.append_assoc,List.cons_append]
    have hopen := ih hfront
    rw [runCalls_snoc,lastEnabled_snoc]
    cases call with
    | enable filePath opens =>
      cases filePath with
      | none => exact hopen
      | some path =>
        cases opens with
        | false => exact (h calls path [] rfl).symm
        | true => rfl
    | log level' timestamp formatted =>
      rw [logStep,(utilitiesLog_frame _ _ _ _).1]
      exact hopen

/-- The part of a history in front of a point has no late failure where the whole has none. -/
theorem NoLateFailure.front {front back : List LogCall} (h : NoLateFailure (front++back)) :
    NoLateFailure front := by
  intro front' path back' hsplit
  refine h front' path (back'++back) ?_
  rw [hsplit,List.append_assoc,List.cons_append]

/-- From the start of the program a history is safe exactly when no attempt to open a
file fails after one has succeeded. -/
theorem safeHistory_iff (level : UtilitiesLogLevel) (files : Bytes → Bytes) (calls : List LogCall) :
    SafeHistory (.initial level files) calls ↔ NoLateFailure calls := by
  constructor
  · intro hsafe front path back hsplit
    have hnext := (hsafe (front++[.enable (some path) false]) back
      (by rw [hsplit,List.append_assoc]; rfl)).1
    have hflag := (flag_eq level files (front++[.enable (some path) false])).1
    have hclosed : (runCalls (.initial level files) (front++[.enable (some path) false])).sLogFile=none := by
      rw [runCalls_snoc]
      rfl
    rw [lastEnabled_snoc] at hflag
    rw [hflag,hclosed] at hnext
    cases hlast : lastEnabled front with
    | none => rfl
    | some last =>
      rw [hlast] at hnext
      exact absurd rfl (hnext.mp rfl)
  · intro h front back hsplit
    have hfront : NoLateFailure front := by
      rw [hsplit] at h
      exact h.front
    have hopen := sLogFile_eq level files hfront
    have hflag := (flag_eq level files front).1
    refine ⟨?_,?_⟩
    · rw [hflag,hopen,Option.isSome_iff_ne_none]
    · intro level' timestamp formatted rest path _ hpasses hlast
      rw [runCalls_snoc,logStep,utilitiesLog,if_neg (by rw [hpasses]; exact Bool.noConfusion),hopen,
        hlast]

/-- The second file cannot be opened: the flag stays set, and a message is lost. -/
theorem failed_switch_not_safe :
    ¬SafeHistory (.initial .debug (fun _ => []))
        [.enable (some (text "a.log")) true,.enable (some (text "b.log")) false,
          .log .info (text "t") (text "lost")] ∧
      (runCalls (.initial .debug (fun _ => []))
        [.enable (some (text "a.log")) true,.enable (some (text "b.log")) false]).utilitiesFileLogging=true ∧
      (runCalls (.initial .debug (fun _ => []))
        [.enable (some (text "a.log")) true,.enable (some (text "b.log")) false,
          .log .info (text "t") (text "lost")]).files (text "a.log")=[] := by
  refine ⟨?_,rfl,rfl⟩
  intro hsafe
  have hstate := (hsafe [.enable (some (text "a.log")) true,.enable (some (text "b.log")) false]
    [.log .info (text "t") (text "lost")] rfl).1
  exact absurd rfl (hstate.mp rfl)

end HoneyDew.LogFile
