import HoneyDew.TelnetService

/-!
# Which downloads are reported

The responder looks for its words anywhere in the command line, one after the
other, and looks for a download only behind ten of them. A download is reported
with its address exactly when none of the ten stands in the line, be it as a
part of another word or of the address.
-/

namespace HoneyDew.TelnetDownloads

open CText Service TelnetService

/-- What `telnet_fake_response` looks for first. -/
def earlierWords : List String :=
  ["whoami","id","uname","pwd","cat /etc/passwd","cat /etc/shadow","ls","ps","ifconfig","ip addr"]

/-- A download by `wget` or `curl` from an address that starts with `http`. -/
structure Download (cmd : Bytes) : Prop where
  /-- A command line is a C string. -/
  zero_not_mem : (0 : Byte)∉cmd
  /-- It contains the name of a program that downloads. -/
  program : text "wget"<:+:cmd ∨ text "curl"<:+:cmd
  /-- It contains an address. -/
  address : text "http"<:+:cmd

/-- The answer of a program that gets no connection. -/
def refusal (cmd : Bytes) : Bytes :=
  if mentions cmd "wget" then replyLine "Connecting to remote host... Connection refused"
  else replyLine "curl: (7) Failed to connect to remote host: Connection refused"

/-- The message about a download attempt. -/
def downloadText (s : Session) (url : Bytes) : Bytes :=
  text "[Telnet蜜罐] 检测到下载尝试: URL="++[34]++url++[34]++s.origin

/-- The warning of a download attempt. -/
def downloadWarning (s : Session) (url : Bytes) : Action := utilitiesLog (downloadText s url)

/-- A command line is reported with what stands from its first `http` on, and
refused. -/
def Reported (s : Session) (cmd : Bytes) : Prop :=
  ∃ front url,cmd=front++url ∧ text "http"<+:url ∧
    (∀ front' url',cmd=front'++url' → text "http"<+:url' → front.length≤front'.length) ∧
    telnetFakeResponse s cmd=([downloadWarning s url],some (refusal cmd))

section Responding

variable {cmd : Bytes}

/-- A download names one of the programs. -/
theorem Download.names_program (h : Download cmd) :
    (mentions cmd "wget" || mentions cmd "curl")=true := by
  rw [Bool.or_eq_true,mentions_iff h.zero_not_mem,mentions_iff h.zero_not_mem]
  exact h.program

/-- The first `http` of a download. -/
theorem Download.exists_url (h : Download cmd) :
    ∃ i,strstr cmd (text "http")=some i ∧ text "http"<+:cmd.drop i ∧ i≤cmd.length ∧
      ∀ front url,cmd=front++url → text "http"<+:url → i≤front.length := by
  have hfound := (findSub_isSome_iff (text "http") cmd).mpr h.address
  obtain ⟨i,hi⟩ := Option.isSome_iff_exists.mp hfound
  obtain ⟨hoccurs,hfirst⟩ := findSub_some hi
  have hstrstr : strstr cmd (text "http")=some i := by rwa [strstr,cstr_self h.zero_not_mem]
  have hlength := strstr_length hstrstr (by decide)
  refine ⟨i,hstrstr,hoccurs,by omega,?_⟩
  intro front url hcmd hurl
  by_contra hearlier
  refine hfirst front.length (by omega) ?_
  rwa [hcmd,List.drop_left]

/-- A download without the earlier words is answered by its branch. -/
theorem telnetFakeResponse_download (s : Session) (h : Download cmd) {i : ℕ}
    (hurl : strstr cmd (text "http")=some i) (hnone : cannedAnswer telnetAnswers cmd=none) :
    telnetFakeResponse s cmd=([downloadWarning s (cmd.drop i)],some (refusal cmd)) := by
  have hvisible : cstr (cmd.drop i)=cmd.drop i :=
    cstr_self (fun hzero => h.zero_not_mem (List.mem_of_mem_drop hzero))
  rw [telnetFakeResponse,hnone]
  dsimp only
  rw [if_pos h.names_program,hurl]
  dsimp only
  rw [hvisible]
  rfl

/-- A command line with one of the earlier words is answered by the word, without
a warning. -/
theorem telnetFakeResponse_earlier (s : Session) (hsome : cannedAnswer telnetAnswers cmd≠none) :
    (telnetFakeResponse s cmd).1=[] := by
  obtain ⟨response,hresponse⟩ := Option.ne_none_iff_exists'.mp hsome
  rw [telnetFakeResponse,hresponse]

/-- The message about an address from a line of the shell fits the buffer of the logger,
as the text of the peer's address has at most 45 bytes and its port is an `int`. -/
theorem downloadWarning_whole {s : Session} {url : Bytes} (hurl : url.length≤1023)
    (hip : s.remoteIp.length≤45) (hport : s.remotePort.natAbs<2^32) :
    downloadWarning s url=.log (downloadText s url) := by
  have hhead : (text "[Telnet蜜罐] 检测到下载尝试: URL=").length=42 := by decide
  have hfrom : (text " 来自 ").length=8 := by decide
  have hcolon : (text ":").length=1 := by decide
  have hname := (cstr_front s.remoteIp).length_le
  have hdigits : (decimal s.remotePort.natAbs).length≤10 := length_decimal_le (by decide) (by omega)
  have hnumber : (decimalInt s.remotePort).length≤11 := by
    unfold decimalInt
    split
    · rw [List.length_cons]
      omega
    · omega
  have hfits : (downloadText s url).length≤4095 := by
    rw [downloadText,Session.origin]
    simp only [List.length_append,List.length_singleton,hhead,hfrom,hcolon]
    omega
  rw [downloadWarning,utilitiesLog,List.take_of_length_le hfits]

end Responding

/-- A download is reported with its address and refused exactly when none of the
earlier words stands anywhere in the line. The logger shows the address of a line that
the shell can read whole. -/
theorem download_reported_iff (s : Session) (cmd : Bytes) (h : Download cmd) :
    (Reported s cmd ↔ ∀ word∈earlierWords,¬text word<:+:cmd) ∧
      (cmd.length≤1023 → s.remoteIp.length≤45 → s.remotePort.natAbs<2^32 →
        ∀ url,url<:+cmd → downloadWarning s url=.log (downloadText s url)) := by
  refine ⟨?_,fun hcmd hip hport url hurl =>
    downloadWarning_whole (hurl.length_le.trans hcmd) hip hport⟩
  have hwords : telnetAnswers.flatMap Prod.fst=earlierWords := rfl
  rw [←hwords,←cannedAnswer_eq_none_iff h.zero_not_mem]
  constructor
  · rintro ⟨front,url,-,-,-,hresponse⟩
    by_contra hsome
    have hsilent := telnetFakeResponse_earlier s hsome
    rw [hresponse] at hsilent
    exact List.cons_ne_nil _ _ hsilent
  · intro hnone
    obtain ⟨i,hstrstr,hurl,hi,hfirst⟩ := h.exists_url
    have hfront : (cmd.take i).length=i := List.length_take_of_le hi
    refine ⟨cmd.take i,cmd.drop i,(List.take_append_drop i cmd).symm,hurl,?_,
      telnetFakeResponse_download s h hstrstr hnone⟩
    rwa [hfront]

/-- A download over plain `http` without the earlier words. -/
theorem plain_download_reported :
    Download (text "curl http://a/x.sh") ∧
      Reported ⟨text "10.0.0.9",40000,text "id"⟩ (text "curl http://a/x.sh") ∧
      downloadWarning ⟨text "10.0.0.9",40000,text "id"⟩ (text "http://a/x.sh")=
        .log (downloadText ⟨text "10.0.0.9",40000,text "id"⟩ (text "http://a/x.sh")) := by
  have hdownload : Download (text "curl http://a/x.sh") :=
    ⟨by decide,.inr (by decide),by decide⟩
  have hreported := download_reported_iff ⟨text "10.0.0.9",40000,text "id"⟩ _ hdownload
  exact ⟨hdownload,hreported.1.mpr (by decide),
    hreported.2 (by decide) (by decide) (by decide) (text "http://a/x.sh") (by decide)⟩

/-- The address of a download over `https` contains `ps`, and the download is
answered with a list of processes. -/
theorem https_download_not_reported :
    Download (text "wget https://a/x.sh") ∧
      ¬Reported ⟨text "10.0.0.9",40000,text "id"⟩ (text "wget https://a/x.sh") := by
  refine ⟨⟨by decide,.inl (by decide),by decide⟩,?_⟩
  rintro ⟨front,url,-,-,-,hresponse⟩
  have hsilent : (telnetFakeResponse ⟨text "10.0.0.9",40000,text "id"⟩
      (text "wget https://a/x.sh")).1=[] := by decide
  rw [hresponse] at hsilent
  exact List.cons_ne_nil _ _ hsilent

end HoneyDew.TelnetDownloads
