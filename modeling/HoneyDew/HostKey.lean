import HoneyDew.CText

/-!
# The SSH host key

At the start of the program the key directory and the two key files are checked. A pair
that passes is kept, with wrong permissions repaired; a missing private key or a missing
or invalid public key makes the program remove both files and call `ssh-keygen`. Every
call to the system may fail, and `ssh-keygen` may leave any files.
-/

namespace HoneyDew.HostKey

open CText

/-! ## The files -/

/-- A regular file. -/
structure KeyFile where
  /-- The bytes in it. -/
  contents : Bytes
  /-- The permission bits of `st_mode`. -/
  mode : ℕ
  deriving DecidableEq,Repr

/-- What stands at `SSH_KEY_DIR`. -/
inductive KeyDirectory
  | absent
  | directory
  | other
  deriving DecidableEq,Repr

/-- The key directory and the two key files. -/
structure KeyStore where
  /-- What stands at `SSH_KEY_DIR`. -/
  directory : KeyDirectory
  /-- The file at `key_path`. -/
  key : Option KeyFile
  /-- The file at `pub_path`. -/
  pub : Option KeyFile
  deriving DecidableEq,Repr

/-- Whether the calls of one `validate_key_file` succeed on a file that exists. -/
structure CheckOutcomes where
  /-- The call of `stat`. -/
  stat : Bool
  /-- The call of `chmod`. -/
  chmod : Bool
  /-- The call of `fopen`. -/
  fopen : Bool
  /-- The call of `fgets`, where there is something to read. -/
  fgets : Bool

/-- How the calls of `ensure_ssh_host_key` end. A call that needs a file fails without
one, whatever stands here. -/
structure Outcomes where
  /-- `stat` of the directory. -/
  statDirectory : Bool
  /-- `mkdir` where nothing is in its way. -/
  mkdir : Bool
  /-- `stat` of the private key. -/
  statKey : Bool
  /-- The first check of the private key. -/
  checkKey : CheckOutcomes
  /-- The first check of the public key. -/
  checkPub : CheckOutcomes
  /-- `unlink` of the private key. -/
  unlinkKey : Bool
  /-- `unlink` of the public key. -/
  unlinkPub : Bool
  /-- What `system` returns for the `ssh-keygen` command, and the files it leaves. -/
  keygen : Option KeyFile → Option KeyFile → ℤ×Option KeyFile×Option KeyFile
  /-- `chmod` of the private key. -/
  chmodKey : Bool
  /-- `chmod` of the public key. -/
  chmodPub : Bool
  /-- The last check of the private key. -/
  recheckKey : CheckOutcomes
  /-- The last check of the public key. -/
  recheckPub : CheckOutcomes

/-! ## The code -/

/-- `ensure_key_directory`: the value returned and the directory. -/
def ensureKeyDirectory (o : Outcomes) (dir : KeyDirectory) : ℤ×KeyDirectory :=
  if o.statDirectory=true ∧ dir≠.absent then
    if dir=.directory then (0,dir) else (-1,dir)
  else if o.mkdir=true ∧ dir=.absent then (0,.directory)
  else (-1,dir)

/-- `fgets` of at most `n` bytes: up to a line feed, and with it. -/
def fgets : ℕ → Bytes → Bytes
  | 0,_ => []
  | _+1,[] => []
  | n+1,b::bs => if b=10 then [b] else b::fgets n bs

/-- The marker of a PEM file. -/
def pemMarker : Bytes := text "-----BEGIN"

/-- The permissions after the repair in `validate_key_file`. -/
def repairMode (expectedMode : ℕ) (f : KeyFile) : KeyFile :=
  if f.mode&&&0o777≠expectedMode then {f with mode := expectedMode} else f

/-- `validate_key_file`: the value returned and the file. -/
def validateKeyFile (o : CheckOutcomes) (expectedMode : ℕ) (file : Option KeyFile) :
    ℤ×Option KeyFile :=
  match file with
  | none => (-1,none)
  | some f =>
    if o.stat=false then (-1,some f)
    else if f.contents.length=0 then (-1,some f)
    else if f.mode&&&0o777≠expectedMode ∧ o.chmod=false then (-1,some f)
    else if o.fopen=false then (-1,some (repairMode expectedMode f))
    else if o.fgets=false then (-1,some (repairMode expectedMode f))
    else if expectedMode=0o600 ∧ strstr (fgets 63 f.contents++[0]) pemMarker=none then
      (-1,some (repairMode expectedMode f))
    else (0,some (repairMode expectedMode f))

/-- `chmod`: whether it succeeds, and the file. -/
def chmod (succeeds : Bool) (mode : ℕ) (file : Option KeyFile) : Bool×Option KeyFile :=
  match file with
  | none => (false,none)
  | some f => if succeeds=true then (true,some {f with mode := mode}) else (false,some f)

/-- `unlink`, whose value is not looked at. -/
def unlink (succeeds : Bool) (file : Option KeyFile) : Option KeyFile :=
  if succeeds=true then none else file

/-- `ensure_ssh_host_key` from the message that a key is generated. -/
def generateKey (o : Outcomes) (s : KeyStore) : ℤ×KeyStore :=
  let made := o.keygen (unlink o.unlinkKey s.key) (unlink o.unlinkPub s.pub)
  if made.1≠0 then (-1,{s with key := made.2.1,pub := made.2.2})
  else
    let key := chmod o.chmodKey 0o600 made.2.1
    if key.1=false then (-1,{s with key := key.2,pub := made.2.2})
    else
      let pub := chmod o.chmodPub 0o644 made.2.2
      if pub.1=false then (-1,{s with key := key.2,pub := pub.2})
      else
        let checkedKey := validateKeyFile o.recheckKey 0o600 key.2
        if checkedKey.1≠0 then (-1,{s with key := checkedKey.2,pub := pub.2})
        else
          let checkedPub := validateKeyFile o.recheckPub 0o644 pub.2
          (if checkedPub.1≠0 then -1 else 0,{s with key := checkedKey.2,pub := checkedPub.2})

/-- `stat` of the private key succeeds and reports a size above zero. -/
def keyPresent (o : Outcomes) (key : Option KeyFile) : Bool :=
  o.statKey && key.elim false (fun f => 0<f.contents.length)

/-- `ensure_ssh_host_key`: the value returned and what is on disk then. -/
def ensureSshHostKey (o : Outcomes) (s : KeyStore) : ℤ×KeyStore :=
  let dir := ensureKeyDirectory o s.directory
  let s := {s with directory := dir.2}
  if dir.1≠0 then (-1,s)
  else if keyPresent o s.key=true then
    let checkedKey := validateKeyFile o.checkKey 0o600 s.key
    if checkedKey.1≠0 then (-1,{s with key := checkedKey.2})
    else
      let checkedPub := validateKeyFile o.checkPub 0o644 s.pub
      let s := {s with key := checkedKey.2,pub := checkedPub.2}
      if checkedPub.1≠0 then generateKey o s else (0,s)
  else generateKey o s

/-! ## What it guarantees -/

/-- The first line of a file, with its line feed. -/
def firstLine : Bytes → Bytes
  | [] => []
  | b::bs => if b=10 then [b] else b::firstLine bs

/-- Both files are there, not empty and with their permissions, and the first line of the
private key contains the marker. -/
def Prepared (s : KeyStore) : Prop :=
  ∃ key pub,s.key=some key ∧ s.pub=some pub ∧ key.contents≠[] ∧ pub.contents≠[] ∧
    key.mode&&&0o777=0o600 ∧ pub.mode&&&0o777=0o644 ∧ pemMarker<:+:firstLine key.contents

/-- The code turns to the generation of a pair: the directory is in order, and either
`stat` reports no private key with something in it, or the private key passes its check
and the public key does not. -/
def Regenerates (o : Outcomes) (s : KeyStore) : Prop :=
  (ensureKeyDirectory o s.directory).1=0 ∧
    (keyPresent o s.key=false ∨
      (validateKeyFile o.checkKey 0o600 s.key).1=0 ∧ (validateKeyFile o.checkPub 0o644 s.pub).1≠0)

/-- What `fgets` reads is a front of the first line. -/
theorem fgets_front (n : ℕ) (bs : Bytes) : fgets n bs<+:firstLine bs := by
  induction n generalizing bs with
  | zero => exact List.nil_prefix
  | succ n ih =>
    cases bs with
    | nil => exact List.nil_prefix
    | cons b bs =>
      rw [fgets,firstLine]
      split
      · exact List.prefix_rfl
      · exact List.cons_prefix_cons.mpr ⟨rfl,ih bs⟩

/-- A marker that `strstr` finds in what was read is in the first line. -/
theorem marker_in_firstLine {n : ℕ} {bs : Bytes} (h : strstr (fgets n bs++[0]) pemMarker≠none) :
    pemMarker<:+:firstLine bs := by
  have hfound := Option.isSome_iff_ne_none.mpr h
  rw [strstr,cstr_append_nul] at hfound
  have hinfix := (findSub_isSome_iff _ _).mp hfound
  exact hinfix.trans ((cstr_front _).trans (fgets_front n bs)).isInfix

/-- A repair changes no contents. -/
theorem repairMode_contents (expectedMode : ℕ) (f : KeyFile) :
    (repairMode expectedMode f).contents=f.contents := by
  unfold repairMode
  split <;> rfl

/-- After a repair the permissions are the expected ones. -/
theorem repairMode_mode {expectedMode : ℕ} (hmode : expectedMode&&&0o777=expectedMode)
    (f : KeyFile) : (repairMode expectedMode f).mode&&&0o777=expectedMode := by
  unfold repairMode
  split
  · exact hmode
  · rename_i hsame
    exact not_not.mp hsame

/-- A check leaves a file as it is or repairs its permissions. -/
theorem validateKeyFile_file (o : CheckOutcomes) (expectedMode : ℕ) (f : KeyFile) :
    (validateKeyFile o expectedMode (some f)).2=some f ∨
      (validateKeyFile o expectedMode (some f)).2=some (repairMode expectedMode f) := by
  unfold validateKeyFile
  dsimp only
  split
  · exact Or.inl rfl
  split
  · exact Or.inl rfl
  split
  · exact Or.inl rfl
  split
  · exact Or.inr rfl
  split
  · exact Or.inr rfl
  split <;> exact Or.inr rfl

/-- A check changes no contents. -/
theorem validateKeyFile_contents (o : CheckOutcomes) (expectedMode : ℕ) (file : Option KeyFile) :
    (validateKeyFile o expectedMode file).2.map KeyFile.contents=file.map KeyFile.contents := by
  cases file with
  | none => rfl
  | some f =>
    rcases validateKeyFile_file o expectedMode f with h|h
    · rw [h]
    · rw [h,Option.map_some,Option.map_some,repairMode_contents]

/-- A file that passes its check is there and not empty, has the permissions then, and a
private key has the marker. -/
theorem validateKeyFile_zero {o : CheckOutcomes} {expectedMode : ℕ} {file : Option KeyFile}
    (hmode : expectedMode&&&0o777=expectedMode) (h : (validateKeyFile o expectedMode file).1=0) :
    ∃ f,(validateKeyFile o expectedMode file).2=some f ∧ f.contents≠[] ∧
      f.mode&&&0o777=expectedMode ∧ (expectedMode=0o600 → pemMarker<:+:firstLine f.contents) := by
  cases file with
  | none => cases h
  | some f =>
    have hrepaired := repairMode_mode hmode f
    have hcontents := repairMode_contents expectedMode f
    unfold validateKeyFile at h ⊢
    dsimp only at h ⊢
    split at h
    · cases h
    rename_i hstat
    split at h
    · cases h
    rename_i hempty
    split at h
    · cases h
    rename_i hchmod
    split at h
    · cases h
    rename_i hfopen
    split at h
    · cases h
    rename_i hfgets
    split at h
    · cases h
    rename_i hmarker
    rw [if_neg hstat,if_neg hempty,if_neg hchmod,if_neg hfopen,if_neg hfgets,if_neg hmarker]
    refine ⟨repairMode expectedMode f,rfl,?_,hrepaired,?_⟩
    · rw [hcontents]
      exact fun hnil => hempty (by rw [hnil]; rfl)
    · intro hprivate
      rw [hcontents]
      exact marker_in_firstLine (fun hnone => hmarker ⟨hprivate,hnone⟩)

/-- Two files that pass their checks are a pair that is in order. -/
theorem prepared_of_checks {oKey oPub : CheckOutcomes} {key pub : Option KeyFile}
    (hkey : (validateKeyFile oKey 0o600 key).1=0) (hpub : (validateKeyFile oPub 0o644 pub).1=0)
    (dir : KeyDirectory) :
    Prepared ⟨dir,(validateKeyFile oKey 0o600 key).2,(validateKeyFile oPub 0o644 pub).2⟩ := by
  obtain ⟨k,hk,hkcontents,hkmode,hkmarker⟩ := validateKeyFile_zero (by decide) hkey
  obtain ⟨p,hp,hpcontents,hpmode,-⟩ := validateKeyFile_zero (by decide) hpub
  exact ⟨k,p,hk,hp,hkcontents,hpcontents,hkmode,hpmode,hkmarker rfl⟩

/-- A generation that ends well leaves a pair that is in order. -/
theorem generateKey_zero {o : Outcomes} {s : KeyStore} (h : (generateKey o s).1=0) :
    Prepared (generateKey o s).2 := by
  unfold generateKey at h ⊢
  dsimp only at h ⊢
  split at h
  · cases h
  rename_i hmade
  split at h
  · cases h
  rename_i hchmodKey
  split at h
  · cases h
  rename_i hchmodPub
  split at h
  · cases h
  rename_i hkey
  rw [if_neg hmade,if_neg hchmodKey,if_neg hchmodPub,if_neg hkey]
  dsimp only at h
  split at h
  · cases h
  rename_i hpub
  exact prepared_of_checks (not_not.mp hkey) (not_not.mp hpub) _

/-- Where no pair is generated, the contents of both files stay. -/
theorem ensureSshHostKey_kept {o : Outcomes} {s : KeyStore} (h : ¬Regenerates o s) :
    (ensureSshHostKey o s).2.key.map KeyFile.contents=s.key.map KeyFile.contents ∧
      (ensureSshHostKey o s).2.pub.map KeyFile.contents=s.pub.map KeyFile.contents := by
  unfold ensureSshHostKey
  dsimp only
  split
  · exact ⟨rfl,rfl⟩
  rename_i hdir
  have hdir' := not_not.mp hdir
  split
  · split
    · exact ⟨validateKeyFile_contents _ _ _,rfl⟩
    rename_i hkey
    split
    · rename_i hpub
      exact absurd ⟨hdir',Or.inr ⟨not_not.mp hkey,hpub⟩⟩ h
    · exact ⟨validateKeyFile_contents _ _ _,validateKeyFile_contents _ _ _⟩
  · rename_i hpresent
    exact absurd ⟨hdir',Or.inl (Bool.eq_false_iff.mpr hpresent)⟩ h

/-- A return value of zero means that the pair is in order. -/
theorem ensureSshHostKey_zero {o : Outcomes} {s : KeyStore} (h : (ensureSshHostKey o s).1=0) :
    Prepared (ensureSshHostKey o s).2 := by
  unfold ensureSshHostKey at h ⊢
  dsimp only at h ⊢
  split at h
  · cases h
  rename_i hdir
  rw [if_neg hdir]
  split at h
  · rename_i hpresent
    rw [if_pos hpresent]
    split at h
    · cases h
    rename_i hkey
    rw [if_neg hkey]
    split at h
    · rename_i hpub
      rw [if_pos hpub]
      exact generateKey_zero h
    · rename_i hpub
      rw [if_neg hpub]
      exact prepared_of_checks (not_not.mp hkey) (not_not.mp hpub) _
  · rename_i hpresent
    rw [if_neg hpresent]
    exact generateKey_zero h

/-- `chmod` changes no contents. -/
theorem chmod_contents (succeeds : Bool) (mode : ℕ) (file : Option KeyFile) :
    (chmod succeeds mode file).2.map KeyFile.contents=file.map KeyFile.contents := by
  cases file with
  | none => rfl
  | some f =>
    unfold chmod
    dsimp only
    split <;> rfl

/-- After a generation the private key has the contents that `ssh-keygen` left, whatever
was there before. -/
theorem generateKey_contents (o : Outcomes) (s : KeyStore) :
    (generateKey o s).2.key.map KeyFile.contents=
      (o.keygen (unlink o.unlinkKey s.key) (unlink o.unlinkPub s.pub)).2.1.map KeyFile.contents := by
  have hchmod := chmod_contents o.chmodKey 0o600
    (o.keygen (unlink o.unlinkKey s.key) (unlink o.unlinkPub s.pub)).2.1
  unfold generateKey
  dsimp only
  split
  · rfl
  split
  · exact hchmod
  split
  · exact hchmod
  split <;> exact (validateKeyFile_contents _ _ _).trans hchmod

/-- A generation is entered with nothing but repaired permissions, so where `unlink`
removes the old pair only what `ssh-keygen` makes of nothing is left. -/
theorem ensureSshHostKey_regenerated {o : Outcomes} {s : KeyStore} (h : Regenerates o s)
    (hkey : o.unlinkKey=true) (hpub : o.unlinkPub=true) :
    (ensureSshHostKey o s).2.key.map KeyFile.contents=
      (o.keygen none none).2.1.map KeyFile.contents := by
  have hgenerated : ∀ s' : KeyStore,(generateKey o s').2.key.map KeyFile.contents=
      (o.keygen none none).2.1.map KeyFile.contents := by
    intro s'
    have hcontents := generateKey_contents o s'
    unfold unlink at hcontents
    rwa [if_pos hkey,if_pos hpub] at hcontents
  unfold ensureSshHostKey
  dsimp only
  rw [if_neg (not_not.mpr h.1)]
  rcases h.2 with habsent|⟨hchecked,hinvalid⟩
  · rw [if_neg (Bool.eq_false_iff.mp habsent)]
    exact hgenerated _
  · split
    · rw [if_neg (not_not.mpr hchecked)]
      exact hgenerated _
    · exact hgenerated _

/-- A return value of zero means that the pair is in order, and with -1 a private key that
was there is still there with its contents, unless the code has turned to the generation
of a new pair. -/
theorem hostKey_prepared_or_kept (o : Outcomes) (s : KeyStore) :
    ((ensureSshHostKey o s).1=0 → Prepared (ensureSshHostKey o s).2) ∧
      ((ensureSshHostKey o s).1=-1 → ¬Regenerates o s → ∀ key,s.key=some key →
        ∃ kept,(ensureSshHostKey o s).2.key=some kept ∧ kept.contents=key.contents) := by
  refine ⟨ensureSshHostKey_zero,?_⟩
  intro _ hregenerates key hkey
  have hcontents := (ensureSshHostKey_kept hregenerates).1
  rw [hkey,Option.map_some] at hcontents
  exact Option.map_eq_some_iff.mp hcontents

/-- All calls succeed, and `ssh-keygen` ends with a status and files. -/
def allSucceed (status : ℤ) (key pub : Option KeyFile) : Outcomes :=
  ⟨true,true,true,⟨true,true,true,true⟩,⟨true,true,true,true⟩,true,true,
    fun _ _ => (status,key,pub),true,true,⟨true,true,true,true⟩,⟨true,true,true,true⟩⟩

/-- A pair with a wrong permission is kept, and a private key that is no PEM file is left
where it is. -/
theorem hostKey_prepared_and_kept :
    Prepared (ensureSshHostKey (allSucceed 0 none none)
        ⟨.directory,some ⟨text "-----BEGIN RSA",0o644⟩,some ⟨text "ssh-rsa",0o644⟩⟩).2 ∧
      ∃ kept,(ensureSshHostKey (allSucceed 0 none none)
          ⟨.directory,some ⟨text "nothing",0o600⟩,none⟩).2.key=some kept ∧
        kept.contents=text "nothing" := by
  refine ⟨(hostKey_prepared_or_kept _ _).1 (by decide),
    (hostKey_prepared_or_kept (allSucceed 0 none none)
      ⟨.directory,some ⟨text "nothing",0o600⟩,none⟩).2 (by decide) ?_ _ rfl⟩
  rintro ⟨-,hpresent|⟨hchecked,-⟩⟩
  · exact absurd hpresent (by decide)
  · exact absurd hchecked (by decide)

/-- With a private key in order and no public key, a failing `ssh-keygen` leaves nothing. -/
theorem hostKey_lost :
    (ensureSshHostKey (allSucceed 256 none none)
        ⟨.directory,some ⟨text "-----BEGIN RSA",0o600⟩,none⟩).1=-1 ∧
      pemMarker<:+:firstLine (text "-----BEGIN RSA") ∧
      (ensureSshHostKey (allSucceed 256 none none)
        ⟨.directory,some ⟨text "-----BEGIN RSA",0o600⟩,none⟩).2.key=none := by
  refine ⟨by decide,?_,by decide⟩
  exact ⟨[],text " RSA",by decide⟩

end HoneyDew.HostKey
