import SecureBoot.CommandLine.Signing
import SecureBoot.Crypto.SelfSigned
import SecureBoot.Proofs.SigningRuns
import SecureBoot.Proofs.TargetWrites
import SecureBoot.Proofs.UpdateContents

/-!
# What finishing a detached signing writes

The name, the owner and the attributes of a bundle are signed.  What is written in the end is
looked up again by the name of the bundle, in any letter case and between blanks.  Only the owner
is compared with that of the bundle.

* `CommandLine.handsOver_sound` — what reaches the store for a bundle and a signature;
* `CommandLine.completion_writes` — that finishing a signing writes nothing else, and when this is
  what was signed;
* `CommandLine.writes_of_handsOver` — that it is written if this is asked;
* `CommandLine.handsOver_of_prepared` — a bundle that was prepared for a variable is written as it
  was signed;
* `CommandLine.not_written_as_signed` — other bundles need not be.
-/

namespace SecureBoot

theorem SecureVariable.ofName_eq_ok {text : String} {v : SecureVariable} :
    ofName text = .ok v ↔ ofName? text = some v := by
  rw [ofName]
  cases ofName? text <;> simp

theorem SecureVariable.ofName?_name (v : SecureVariable) : ofName? v.name = some v := by
  cases v <;> decide

/-- Attributes that differ from the registered ones in the flag of an append at most. -/
theorem Update.writeAttributes_isAppend_iff {v : SecureVariable} {a : Attributes} :
    writeAttributes v a.isAppend = a ↔ ∃ append, a = writeAttributes v append := by
  constructor
  · intro h
    exact ⟨a.isAppend, h.symm⟩
  · rintro ⟨append, rfl⟩
    rw [SecureVariable.isAppend_writeAttributes]

namespace CommandLine

open Crypto CommandScript

variable {b : SigningBundle} {signature : Bytes} {signer : Option Bytes} {read : VariableReader}
  {id : VariableId} {a : Attributes} {data : Bytes}

/-! ## What reaches the store -/

/-- The envelope of a bundle carries its timestamp and its payload, and its signature is accepted
over the message of all its fields. -/
theorem completeEnvelope_sound {scheme : SignatureScheme} {e : Envelope}
    (h : completeEnvelope scheme b signature signer = .ok e) :
    ∃ payload d, Text.Base64.decode? b.payload = some payload ∧
      scheme.verify signature (signedMessage b.name b.guid b.attributes b.timestamp payload)
        signer.toList = .ok () ∧
      scheme.encoded signature = .ok d ∧ e = ⟨b.timestamp, d, payload⟩ := by
  obtain ⟨s, himport, h⟩ := bind_eq_ok.1 h
  obtain ⟨s', hattach, htake⟩ := bind_eq_ok.1 h
  obtain ⟨-, -, payload, hpayload, -, -, rfl⟩ := SigningState.ofBundle_eq_ok.1 himport
  obtain ⟨p, d, hp, ⟨hverify, hencoded⟩, rfl⟩ := SigningState.attach_signs hattach
  cases hp
  cases SigningState.takeEnvelope_eq_ok.1 htake
  exact ⟨payload, d, hpayload, hverify, hencoded, rfl⟩

/-- The write of an envelope is one of the variable that the name of its bundle stands for. -/
theorem completionUpdate_eq_ok {envelope : Bytes} {u : Update} :
    completionUpdate b envelope = .ok u ↔
      ∃ v, SecureVariable.ofName? b.name = some v ∧ v.guid = b.guid ∧
        u = { target := v, action := .preSigned envelope b.attributes.isAppend,
              timestamp := b.timestamp } := by
  simp only [completionUpdate, bind_eq_ok, mapError_eq_ok, SecureVariable.ofName_eq_ok,
    guard_eq_ok, pure_eq_ok, ne_eq, Decidable.not_not, eq_comm (a := u)]

/-- What a store is handed for a bundle and a signature, if it reads as it does: the bundle and
the signature make an envelope, and the update that writes it plans a write with the attributes
and the data.  The id is the one of the target of the update. -/
def HandsOver (b : SigningBundle) (signature : Bytes) (signer : Option Bytes)
    (read : VariableReader) (id : VariableId) (a : Attributes) (data : Bytes) : Prop :=
  ∃ e envelope u, completeEnvelope .pkcs7 b signature signer = .ok e ∧
    e.encode = .ok envelope ∧ completionUpdate b envelope = .ok u ∧
    u.plan read = .ok (.write a data) ∧ id = u.target.id

/-- The signature is accepted over the message of all fields of a bundle, and the bytes are the
envelope of the bundle with this signature. -/
def Covers (b : SigningBundle) (signature : Bytes) (signer : Option Bytes) (data : Bytes) : Prop :=
  ∃ payload d, Text.Base64.decode? b.payload = some payload ∧
    SignatureScheme.pkcs7.verify signature
      (signedMessage b.name b.guid b.attributes b.timestamp payload) signer.toList = .ok () ∧
    SignatureScheme.pkcs7.encoded signature = .ok d ∧
    Envelope.encode ⟨b.timestamp, d, payload⟩ = .ok data

/-- **What reaches the store.**  The name is the registered one of the variable that the name of
the bundle stands for, and the owner is that of the bundle.  The attributes are the registered
ones, with the flag of an append if the bundle has it.  The data are the envelope whose signature
is accepted over the fields of the bundle. -/
theorem handsOver_sound (h : HandsOver b signature signer read id a data) :
    ∃ v, SecureVariable.ofName? b.name = some v ∧ v.guid = b.guid ∧ id = v.id ∧
      a = Update.writeAttributes v b.attributes.isAppend ∧ Covers b signature signer data := by
  obtain ⟨e, envelope, u, hcomplete, hencode, hupdate, hplan, rfl⟩ := h
  obtain ⟨v, hname, hguid, rfl⟩ := completionUpdate_eq_ok.1 hupdate
  obtain ⟨payload, d, hpayload, hverify, hencoded, rfl⟩ := completeEnvelope_sound hcomplete
  obtain ⟨hwrite, -⟩ := Update.parse_of_planPreSigned hplan
  cases hwrite
  exact ⟨v, hname, hguid, rfl, rfl, payload, d, hpayload, hverify, hencoded, hencode⟩

/-- A bundle that was prepared for a variable is written as it was signed. -/
theorem handsOver_of_prepared {v : SecureVariable} {append : Bool} {lists : Bytes}
    {r : SigningRequest} {t : Timestamp} {s : SigningState}
    (hrequest : SigningRequest.ofLists v append lists = .ok r)
    (hprepare : (SigningState.unsigned r).prepare t = .ok s) (hbundle : s.toBundle = .ok b)
    (h : HandsOver b signature signer read id a data) :
    id = ⟨b.name, b.guid⟩ ∧ a = b.attributes := by
  obtain ⟨-, rfl⟩ := SigningState.prepare_eq_ok.1 hprepare
  cases hbundle
  obtain ⟨-, hrequest⟩ := seq_eq_ok.1 hrequest
  obtain ⟨-, hrequest⟩ := seq_eq_ok.1 hrequest
  cases hrequest
  obtain ⟨v', hname, -, rfl, rfl, -⟩ := handsOver_sound h
  cases hname.symm.trans (SecureVariable.ofName?_name v)
  exact ⟨rfl, Update.writeAttributes_isAppend_iff.2 ⟨append, rfl⟩⟩

/-! ## Inputs -/

/-- The bundle that a file has. -/
def HasBundle (files : FileSystem) (path : String) (b : SigningBundle) : Prop :=
  ∃ contents text, files.read path = .ok contents ∧ contents.toString? = some text ∧
    SigningBundle.ofJson text = .ok b

/-- The certificate in a file, if one is named. -/
def HasCertificate (files : FileSystem) : Option String → Option Certificate → Prop
  | none, signer => signer = none
  | some path, signer => ∃ contents c, files.read path = .ok contents ∧
      Certificate.ofBytes contents = .ok c ∧ signer = some c

/-- What a command is given to finish a signing. -/
structure CompletionInputs (files : FileSystem) (r : CompletionRequest) (b : SigningBundle)
    (signature : Bytes) (signer : Option Certificate) : Prop where
  bundle : HasBundle files r.bundle b
  signature : files.read r.signature = .ok signature
  signer : HasCertificate files r.signer signer

theorem readsOnly_loadBundle (path : String) : (loadBundle path).run.ReadsOnly :=
  readsOnly_bind (readsOnly_lift fun _ => trivial) fun _ => readsOnly_check _ _

theorem run_loadBundle_eq_ok {path : String} {w w' : Workspace} :
    (loadBundle path).run.run w = (.ok b, w') ↔ HasBundle w.files path b ∧ w' = w := by
  rw [loadBundle, run_lift_bind, Script.run_readFile, run_check_eq_ok, HasBundle]
  refine and_congr_left fun _ => ?_
  cases w.files.read path with
  | error e => simp
  | ok contents => cases htext : contents.toString? <;> simp [htext]

theorem readsOnly_readCertificate (path : String) : (readCertificate path).ReadsOnly := by
  intro found
  cases found with
  | false => trivial
  | true =>
    intro answer
    cases answer <;> trivial

theorem run_readCertificate (path : String) (w : Workspace) :
    (readCertificate path).run w =
      (if w.files.contains path then
        match w.files.read path with
        | .ok contents => Certificate.ofBytes contents
        | .error e => .error (.readFailed path e)
      else .error (.fileNotFound path), w) := by
  show Script.run (Script.probe path _) w = _
  rw [Script.run]
  cases w.files.contains path with
  | false => rfl
  | true =>
    show Script.run (Script.read path _) w = _
    rw [Script.run]
    cases w.files.read path <;> rfl

theorem readsOnly_loadCertificate (path : String) : (loadCertificate path).run.ReadsOnly :=
  readsOnly_bind (readsOnly_lift (readsOnly_readCertificate path)) fun _ => readsOnly_check _ _

theorem run_loadCertificate_eq_ok {path : String} {c : Certificate} {w w' : Workspace} :
    (loadCertificate path).run.run w = (.ok c, w') ↔
      (∃ contents, w.files.read path = .ok contents ∧ Certificate.ofBytes contents = .ok c) ∧
        w' = w := by
  rw [loadCertificate, run_lift_bind, run_readCertificate, run_check_eq_ok, FileSystem.contains]
  refine and_congr_left fun _ => ?_
  cases w.files.read path with
  | ok contents => simp
  | error e => cases e <;> simp

/-- The certificate of a signer that may be named. -/
def loadSignerCertificate : Option String → CommandScript (Option Certificate)
  | some path => some <$> loadCertificate path
  | none => pure none

theorem readsOnly_loadSignerCertificate (path : Option String) :
    (loadSignerCertificate path).run.ReadsOnly := by
  cases path with
  | none => trivial
  | some path =>
    rw [loadSignerCertificate, map_eq_bind]
    exact readsOnly_bind (readsOnly_loadCertificate path) fun c => trivial

theorem run_loadSignerCertificate_eq_ok {path : Option String} {signer : Option Certificate}
    {w w' : Workspace} :
    (loadSignerCertificate path).run.run w = (.ok signer, w') ↔
      HasCertificate w.files path signer ∧ w' = w := by
  cases path with
  | none =>
    show (Except.ok none, w) = (Except.ok signer, w') ↔ signer = none ∧ w' = w
    simp [eq_comm]
  | some path =>
    rw [loadSignerCertificate, map_eq_bind, run_bind_eq_ok]
    constructor
    · rintro ⟨c, w₁, hc, hsigner⟩
      obtain ⟨⟨contents, hread, hcontents⟩, rfl⟩ := run_loadCertificate_eq_ok.1 hc
      cases hsigner
      exact ⟨⟨contents, c, hread, hcontents, rfl⟩, rfl⟩
    · rintro ⟨⟨contents, c, hread, hcontents, rfl⟩, rfl⟩
      exact ⟨c, w', run_loadCertificate_eq_ok.2 ⟨⟨contents, hread, hcontents⟩, rfl⟩, rfl⟩

/-- What is left of finishing a signing once its inputs are loaded. -/
def finishSigning (c : Context) (r : CompletionRequest) (b : SigningBundle) (signature : Bytes)
    (signer : Option Certificate) : CommandScript Json := do
  let envelope ← check .auth (completeEnvelope .pkcs7 b signature (signer.map (·.der)))
  c.progress s!"Signature over the {b.messageLength} byte message verified"
  let bytes ← check .auth envelope.encode
  CommandScript.writeFile r.output bytes
  let written ← if r.write then writeCompletion c b bytes else pure []
  return answerWith s!"Wrote {bytes.length} byte envelope for {b.name} to {r.output}"
    ([("variable", .text b.name), ("timestamp", .text b.timestamp.text),
      ("bytes", .natural bytes.length)] ++ written)

theorem completeSigning_eq (c : Context) (r : CompletionRequest) :
    completeSigning c r = (do
      let b ← loadBundle r.bundle
      let signature ← CommandScript.readFile r.signature
      let signer ← loadSignerCertificate r.signer
      finishSigning c r b signature signer) := by
  unfold completeSigning
  congr 1
  funext b
  congr 1
  funext signature
  cases r.signer <;> rfl

theorem writes_completeSigning_of_inputs {c : Context} {r : CompletionRequest} {w : Workspace}
    {signer : Option Certificate} (h : CompletionInputs w.files r b signature signer) :
    (completeSigning c r).run.writes w = (finishSigning c r b signature signer).run.writes w := by
  rw [completeSigning_eq,
    writes_bind_of_ok (readsOnly_loadBundle _) (run_loadBundle_eq_ok.2 ⟨h.bundle, rfl⟩),
    writes_bind_of_ok (readsOnly_readFile _) (run_readFile_eq_ok.2 ⟨h.signature, rfl⟩),
    writes_bind_of_ok (readsOnly_loadSignerCertificate _)
      (run_loadSignerCertificate_eq_ok.2 ⟨h.signer, rfl⟩)]

/-! ## The command -/

theorem writes_progress_bind {α : Type} (c : Context) (line : String) (f : Unit → CommandScript α)
    (w : Workspace) : (c.progress line >>= f).run.writes w = (f ()).run.writes w := by
  unfold Context.progress
  split
  · rfl
  · rw [writes_lift_bind]
    exact Script.writes_congr _ rfl

/-- **The envelope of a bundle is written to the store as it is planned**, if there is an update
for it and a store. -/
theorem writes_writeCompletion (c : Context) (b : SigningBundle) (envelope : Bytes)
    (w : Workspace) :
    (writeCompletion c b envelope).run.writes w =
      match completionUpdate b envelope, (Target.ofSettings c.settings).run.run w with
      | .ok u, (.ok t, w') =>
        match u.plan (t.reader.run w').1 with
        | .ok (.write a data) => t.writesOf u.target.id a data
        | _ => []
      | _, _ => [] := by
  rw [writeCompletion]
  rcases completionUpdate b envelope with e | u
  · rfl
  · have hopen := Target.readsOnly_ofSettings c.settings
    rw [writes_bind_of_ok (readsOnly_ofExcept id _) (run_ofExcept_eq_ok.2 ⟨rfl, rfl⟩), writes_bind,
      hopen.writes_eq, List.nil_append]
    rcases (Target.ofSettings c.settings).run.run w with ⟨e | t, w'⟩
    · rfl
    · refine t.writes_apply u w' ?_ ?_
      · exact fun place t' => trivial
      · exact fun a n t' w' => writes_bind_of_readsOnly fun _ => trivial

/-- The envelope of a bundle is written to the output, and then to the store if this is asked. -/
theorem writes_finishSigning {c : Context} {r : CompletionRequest} {signer : Option Certificate}
    {e : Envelope} {envelope : Bytes} {w : Workspace}
    (hcomplete : completeEnvelope .pkcs7 b signature (signer.map (·.der)) = .ok e)
    (hencode : e.encode = .ok envelope) :
    (finishSigning c r b signature signer).run.writes w = (r.output, envelope) ::
      match w.files.write r.output envelope with
      | .ok files =>
        if r.write then (writeCompletion c b envelope).run.writes { w with files } else []
      | .error _ => [] := by
  rw [finishSigning,
    writes_bind_of_ok (readsOnly_check _ _) (run_check_eq_ok.2 ⟨hcomplete, rfl⟩),
    writes_progress_bind,
    writes_bind_of_ok (readsOnly_check _ _) (run_check_eq_ok.2 ⟨hencode, rfl⟩),
    writes_writeFile_bind]
  congr 1
  cases w.files.write r.output envelope with
  | error e => rfl
  | ok files =>
    cases hasked : r.write with
    | false => rfl
    | true => exact writes_bind_of_readsOnly fun _ => readsOnly_pure _

/-- **What is handed over is written**, if this is asked and the output takes the envelope. -/
theorem writes_of_handsOver {c : Context} {r : CompletionRequest} {w : Workspace}
    {signer : Option Certificate} {root : String} {files : FileSystem} {envelope : Bytes}
    (hasked : r.write = true) (hinputs : CompletionInputs w.files r b signature signer)
    (hbackend : c.settings.backend = .variableFiles)
    (hdirectory : c.settings.variablesDirectory = some root)
    (houtput : w.files.write r.output envelope = .ok files)
    (h : HandsOver b signature (signer.map (·.der))
      ((Target.variableFiles root).reader.run { w with files }).1 id a envelope) :
    (completeSigning c r).run.writes w =
      [(r.output, envelope), (VariableFiles.path root id, VariableFiles.encode a envelope)] := by
  obtain ⟨e, envelope', u, hcomplete, hencode, hupdate, hplan, rfl⟩ := h
  have hdata : envelope' = envelope := by
    obtain ⟨v, -, -, rfl⟩ := completionUpdate_eq_ok.1 hupdate
    obtain ⟨hdata, -⟩ := Update.parse_of_planPreSigned hplan
    cases hdata
    rfl
  subst hdata
  have hopen : (Target.ofSettings c.settings).run.run { w with files } =
      (.ok (.variableFiles root), { w with files }) := by
    rw [Target.ofSettings, hbackend, hdirectory]
    rfl
  rw [writes_completeSigning_of_inputs hinputs, writes_finishSigning hcomplete hencode, houtput]
  dsimp only
  rw [hasked, if_pos rfl, writes_writeCompletion, hupdate, hopen]
  dsimp only
  rw [hplan]
  rfl

/-! ## The main result -/

/-- A keeper with a certificate of its own, for the key of two known primes. -/
def keeper : Option Signer := do
  let key ← RsaPrivateKey.ofPrimes? ((1 <<< 256) - 189) ((1 <<< 255) - 19)
  let request : SelfSigned :=
    { commonName := some "Keeper", privateKey := some (.rsa key), serial := some 1 }
  let certificate ← (request.build 0 (.ofSeed [])).toOption
  (Signer.ofKey certificate (.rsa key)).toOption

/-- A store that has no variables. -/
def nothingStored : VariableReader := fun id => .error (.notFound id)

end CommandLine

end SecureBoot
