import HoneyDew.FtpRuns

/-!
# The X-forms of the FTP directory commands

One branch of the chain serves a command of three letters and its X-form of four. It
takes the argument behind the third letter, so that the last letter of the X-form
and the blank behind it count as part of the argument.
-/

namespace HoneyDew.FtpAliases

open CText CMemory Service FtpService FtpRuns

/-- The X-forms do with an argument what the short forms do: `XCWD` leaves the same
session and the same answer to `PWD`, and the branches of `MKD` and `RMD`, which
take the argument behind the third letter, extract the same directory. -/
def AliasesAgree (s : Session) (sess : FtpSession) (d : Bytes) : Prop :=
  ((ftpExecute s sess (text "XCWD "++d)).sess=(ftpExecute s sess (text "CWD "++d)).sess ∧
    sends (ftpExecute s (ftpExecute s sess (text "XCWD "++d)).sess (text "PWD")).acts=
      sends (ftpExecute s (ftpExecute s sess (text "CWD "++d)).sess (text "PWD")).acts) ∧
  ftpExtractArgument (text "XMKD "++d) 3=ftpExtractArgument (text "MKD "++d) 3 ∧
  ftpExtractArgument (text "XRMD "++d) 3=ftpExtractArgument (text "RMD "++d) 3

/-- The argument of a short form is what stands behind the blanks. -/
theorem ftpExtractArgument_short (a b c : Byte) (d : Bytes) :
    ftpExtractArgument (a::b::c::32::d) 3=d.dropWhile (fun x => x=32) := rfl

/-- The argument of an X-form starts with its last letter. -/
theorem ftpExtractArgument_long (a b c e : Byte) (d : Bytes) (h : e≠32) :
    ftpExtractArgument (a::b::c::e::32::d) 3=e::32::d := by
  have hshort : ¬(a::b::c::e::32::d).length≤3 := by simp
  rw [ftpExtractArgument,if_neg hshort]
  exact List.dropWhile_cons_of_neg (by simpa using h)

section

variable (s : Session) {sess : FtpSession} (d : Bytes)

/-- A line that changes the directory of a client that is logged in. -/
theorem ftpExecute_cwd (hauth : sess.authenticated=true) {line : Bytes} (hverb : ftpVerb line=.cwd) :
    (ftpExecute s sess line).sess=(ftpHandleCommand s sess line .cwd).1 := by
  unfold ftpExecute
  rw [hverb]
  dsimp only
  rw [if_pos hauth]

/-- `XCWD` goes where `CWD` goes with its last letter and a blank in front of the
directory. -/
theorem xcwd_sess (hauth : sess.authenticated=true) :
    (ftpExecute s sess (text "XCWD "++d)).sess=
      (ftpExecute s sess (text "CWD "++(text "D "++d))).sess := by
  have hlong : ftpVerb (text "XCWD "++d)=.cwd := rfl
  have hshort : ftpVerb (text "CWD "++(text "D "++d))=.cwd := rfl
  have hargument : ftpExtractArgument (text "XCWD "++d) 3=
      ftpExtractArgument (text "CWD "++(text "D "++d)) 3 :=
    ftpExtractArgument_long 88 67 87 68 d (by decide)
  rw [ftpExecute_cwd s hauth hlong,ftpExecute_cwd s hauth hshort,ftpHandleCommand,ftpHandleCommand,
    hargument]

/-- The directory that `XMKD` extracts is longer than the argument, and that of `MKD`
is not. -/
theorem xmkd_argument_ne :
    ftpExtractArgument (text "XMKD "++d) 3≠ftpExtractArgument (text "MKD "++d) 3 := by
  have hlong : ftpExtractArgument (text "XMKD "++d) 3=68::32::d :=
    ftpExtractArgument_long 88 77 75 68 d (by decide)
  have hshort : ftpExtractArgument (text "MKD "++d) 3=d.dropWhile (fun x => x=32) :=
    ftpExtractArgument_short 77 75 68 d
  intro h
  have hlength := congrArg List.length h
  have hdrop : (d.dropWhile (fun x => x=32)).length≤d.length := (List.dropWhile_suffix _).length_le
  rw [hlong,hshort,List.length_cons,List.length_cons] at hlength
  omega

end

/-- Whatever the argument and the session, the X-forms do something else with it. -/
theorem not_aliasesAgree (s : Session) (sess : FtpSession) (d : Bytes) : ¬AliasesAgree s sess d :=
  fun h => xmkd_argument_ne d h.2.1

/-- `XCWD tmp` changes to the directory `D tmp`. -/
theorem xcwd_tmp_differs : ¬∀ (s : Session) (sess : FtpSession) (d : Bytes),
    sess.authenticated=true → AliasesAgree s sess d := by
  intro hall
  have htmp := hall ⟨[],0,[]⟩ {FtpSession.start with authenticated := true} (text "tmp") rfl
  exact absurd htmp.1.1 (by decide +kernel)

end HoneyDew.FtpAliases
