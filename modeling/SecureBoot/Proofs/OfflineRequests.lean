import SecureBoot.Proofs.CompletedSignings
import SecureBoot.Proofs.Directories
import SecureBoot.Proofs.SignatureLists
import SecureBoot.Proofs.SigningPaths

/-!
# Signing away from the store

A write is signed away from the store that takes its envelope later.  What may be signed is
checked on the lists, and what may be written is checked on the envelope around them.  The two
checks are made apart from each other.

* `SigningRequest.planPreSigned_eq_ofLists` — they accept and refuse the same, with the same
  errors;
* `SigningRequest.MakesEnvelope.plan` — what is made of a request is written back as it is;
* `CommandLine.run_load_eq_ok`, `CommandLine.run_signUpdate_eq_ok` — when the commands accept a
  job, and when they sign it;
* `CommandLine.signed_as_planned` — so that every envelope that is signed is written, with the
  attributes that were signed.
-/

namespace SecureBoot

/-- The refusal of an envelope as signing tells it: a fault of the lists on its own. -/
def UpdateError.beforeSigning : UpdateError → Error
  | .list e => .list e
  | .payload e => .payload e
  | e => .update e

namespace SigningRequest

variable {v : SecureVariable} {append : Bool} {lists envelope : Bytes} {r : SigningRequest}
  {e : Envelope} {read : VariableReader} {u : Update}

theorem ofLists_eq_ok : ofLists v append lists = .ok r ↔
    requireEnvelope v = .ok () ∧ checkLists v append lists = .ok () ∧
      r = ⟨v.name, v.guid, Update.writeAttributes v append, lists⟩ := by
  simp only [ofLists, seq_eq_ok, pure_eq_ok, eq_comm (a := r)]

/-- **The two checks of a write are one**: what is planned for a signed envelope is what is
requested for the lists in it, and one is refused as the other is. -/
theorem planPreSigned_eq_ofLists (v : SecureVariable) (read : VariableReader) (append : Bool)
    (hparse : Envelope.parse envelope = .ok e) (hsigned : e.isUnsigned = false) :
    (Update.planPreSigned v read envelope append).mapError UpdateError.beforeSigning =
      (ofLists v append e.payload).map fun r => .write r.attributes envelope := by
  unfold Update.planPreSigned ofLists requireEnvelope checkLists
  cases v.requiresEnvelope with
  | false => rfl
  | true =>
    -- the envelope parses and is signed, so that only the checks of its payload are left
    simp only [Bool.not_true, Bool.false_eq_true, if_false, if_true, hparse, mapError_ok, ok_bind,
      hsigned]
    cases append with
    | false =>
      simp only [Bool.false_eq_true, if_false]
      cases v.validatePayload e.payload <;> rfl
    | true =>
      simp only [if_true]
      by_cases hpk : v = .pk
      · rw [if_pos hpk, if_pos hpk]
        rfl
      · rw [if_neg hpk, if_neg hpk]
        cases parseDatabase e.payload <;> rfl

end SigningRequest

/-! ## Writing what was signed -/

/-- An update writes an envelope that was made before to a variable. -/
structure Update.PutsBack (u : Update) (v : SecureVariable) (envelope : Bytes) (append : Bool) :
    Prop where
  target : u.target = v
  action : u.action = .preSigned envelope append

namespace SigningRequest

variable {v : SecureVariable} {append : Bool} {lists envelope : Bytes} {r : SigningRequest}
  {e : Envelope} {read : VariableReader} {u : Update} {signer : Signer} {t : Timestamp}

/-- What is planned for a signed envelope is what is requested for its payload. -/
theorem plan_eq_ofLists (hu : u.PutsBack v envelope append)
    (hparse : Envelope.parse envelope = .ok e) (hsigned : e.isUnsigned = false)
    (read : VariableReader) :
    (u.plan read).mapError UpdateError.beforeSigning =
      (ofLists v append e.payload).map fun r => .write r.attributes envelope := by
  have hplan : u.plan read = Update.planPreSigned v read envelope append := by
    rw [Update.plan, hu.action, hu.target]
  rw [hplan]
  exact planPreSigned_eq_ofLists v read append hparse hsigned

theorem exists_ofLists_iff_exists_plan (hu : u.PutsBack v envelope append)
    (hparse : Envelope.parse envelope = .ok e) (hsigned : e.isUnsigned = false)
    (read : VariableReader) :
    (∃ r, ofLists v append e.payload = .ok r) ↔ ∃ p, u.plan read = .ok p := by
  have hplan := plan_eq_ofLists hu hparse hsigned read
  cases hrequest : ofLists v append e.payload with
  | ok r =>
    rw [hrequest] at hplan
    exact iff_of_true ⟨r, rfl⟩ ⟨_, mapError_eq_ok.1 hplan⟩
  | error err =>
    refine iff_of_false (by simp) ?_
    rintro ⟨p, hp⟩
    rw [hp, hrequest] at hplan
    cases hplan

/-- A signed envelope around requested lists is written back with the requested attributes. -/
theorem plan_of_ofLists (hrequest : ofLists v append e.payload = .ok r)
    (hu : u.PutsBack v envelope append) (hencode : e.encode = .ok envelope)
    (hsigned : e.isUnsigned = false) (read : VariableReader) :
    u.plan read = .ok (.write r.attributes envelope) := by
  have hplan := plan_eq_ofLists hu (Envelope.parse_of_encode hencode) hsigned read
  rw [hrequest] at hplan
  exact mapError_eq_ok.1 hplan

end SigningRequest

/-! ## Signatures -/

/-- A signature of a signer is never empty. -/
def Signer.LeavesSignature (signer : Signer) : Prop :=
  ∀ message d, signer.sign message = .ok d → d ≠ []

theorem Crypto.SignedMessage.toDer_signed_ne_nil (d : SignedData) : (signed d).toDer ≠ [] :=
  List.cons_ne_nil _ _

/-- A key makes a structure with signers. -/
theorem Crypto.SignedMessage.exists_of_sign? {c : Certificate} {k : PrivateKey} {message : Bytes}
    {m : SignedMessage} (h : sign? c k message = some m) : ∃ d, m = signed d := by
  cases k with
  | other => cases h
  | rsa key =>
    obtain ⟨signature, -, rfl⟩ := Option.map_eq_some_iff.1 h
    exact ⟨_, rfl⟩

/-- A signature of a key is an encoded structure. -/
theorem Signer.ofKey_leavesSignature {c : Crypto.Certificate} {k : Crypto.PrivateKey}
    {signer : Signer} (h : ofKey c k = .ok signer) : signer.LeavesSignature := by
  intro message d hsign
  rw [sign_of_ofKey h] at hsign
  cases hmessage : Crypto.SignedMessage.sign? c k message with
  | none =>
    rw [hmessage] at hsign
    cases hsign
  | some m =>
    rw [hmessage] at hsign
    cases hsign
    obtain ⟨data, rfl⟩ := Crypto.SignedMessage.exists_of_sign? hmessage
    exact Crypto.SignedMessage.toDer_signed_ne_nil data

/-- A signature that is accepted is an encoded structure. -/
theorem SignatureScheme.pkcs7_encoded_ne_nil {signature message d : Bytes} {trusted : List Bytes}
    (hverify : pkcs7.verify signature message trusted = .ok ())
    (hencoded : pkcs7.encoded signature = .ok d) : d ≠ [] := by
  obtain ⟨m, hread, rfl⟩ := map_eq_ok.1 hencoded
  obtain ⟨certificates, -, hverify⟩ := bind_eq_ok.1 hverify
  rw [hread, ok_bind, mapError_eq_ok] at hverify
  cases m with
  | signed data => exact Crypto.SignedMessage.toDer_signed_ne_nil data
  | other der => simp [Crypto.SignedMessage.verify] at hverify

/-! ## Envelopes made away from the store -/

/-- An envelope is made of a request away from the store: with a signer at hand, or with a
signature that comes back for its bundle. -/
inductive SigningRequest.MakesEnvelope (r : SigningRequest) : Envelope → Prop
  | signed {signer : Signer} {t : Timestamp} {e : Envelope} (leaves : signer.LeavesSignature)
      (sign : r.sign signer t = .ok e) : r.MakesEnvelope e
  | completed {t : Timestamp} {s : SigningState} {b : SigningBundle} {signature : Bytes}
      {trusted : Option Bytes} {e : Envelope}
      (prepare : (SigningState.unsigned r).prepare t = .ok s) (bundle : s.toBundle = .ok b)
      (complete : CommandLine.completeEnvelope .pkcs7 b signature trusted = .ok e) :
      r.MakesEnvelope e

/-- What is made of a request is an envelope around its payload that is not unsigned. -/
theorem SigningRequest.MakesEnvelope.carries {r : SigningRequest} {e : Envelope}
    (h : r.MakesEnvelope e) : e.payload = r.payload ∧ e.isUnsigned = false := by
  cases h with
  | signed leaves sign =>
    obtain ⟨⟨-, hsign⟩, -, he⟩ := Envelope.build_eq_ok.1 sign
    rw [he]
    exact ⟨rfl, List.isEmpty_eq_false_iff.2 (leaves _ _ hsign)⟩
  | completed prepare bundle complete =>
    obtain ⟨-, rfl⟩ := SigningState.prepare_eq_ok.1 prepare
    cases bundle
    obtain ⟨payload, d, hpayload, hverify, hencoded, rfl⟩ :=
      CommandLine.completeEnvelope_sound complete
    have hsame : payload = r.payload :=
      Option.some.inj (hpayload.symm.trans (Text.Base64.decode?_encode r.payload))
    exact ⟨hsame, List.isEmpty_eq_false_iff.2
      (SignatureScheme.pkcs7_encoded_ne_nil hverify hencoded)⟩

/-- **What was made of requested lists is written back as it is**, with the attributes that were
signed, whatever the store has. -/
theorem SigningRequest.MakesEnvelope.plan {v : SecureVariable} {append : Bool}
    {lists envelope : Bytes} {r : SigningRequest} {e : Envelope} {u : Update}
    (h : r.MakesEnvelope e) (hrequest : ofLists v append lists = .ok r)
    (hencode : e.encode = .ok envelope) (hu : u.PutsBack v envelope append)
    (read : VariableReader) : u.plan read = .ok (.write r.attributes envelope) := by
  obtain ⟨hpayload, hsigned⟩ := h.carries
  obtain ⟨-, -, rfl⟩ := ofLists_eq_ok.1 hrequest
  obtain rfl : e.payload = lists := hpayload
  exact plan_of_ofLists hrequest hu hencode hsigned read

/-! ## Files of the current directory -/

namespace Path

/-- A path of one name, which leads to a file of the current directory if it leads anywhere. -/
structure IsName (path : String) : Prop where
  components : components path = [path]
  noError : FileSystem.pathError? path = none
  file : FileSystem.wantsDirectory path = false
  not_above : path ≠ above
  not_root : path ≠ root

/-- A file name that is short enough is such a path. -/
theorem IsFileName.isName {path : String} (h : IsFileName path) (hshort : path.utf8ByteSize ≤ 255)
    (hnull : path.contains '\x00' = false) : IsName path := by
  refine ⟨h.components_eq, ?_, h.wantsDirectory_eq_false (String.empty_append).symm, h.not_above,
    h.not_root⟩
  rw [FileSystem.pathError?, h.components_eq]
  simp [hnull, h.not_empty]
  omega

end Path

namespace FileSystem

variable {fs : FileSystem} {path : String} {contents : Bytes}

theorem resolve_of_isName (h : Path.IsName path) : fs.resolve path = .ok [path] := by
  have hentered : fs.enter [] path = .ok [path] := by
    rw [enter]
    show (if path != Path.above then _ else _) = _
    rw [if_pos (bne_iff_ne.2 h.not_above)]
    rfl
  rw [resolve, h.noError]
  show (Path.components path).foldlM fs.enter [] = _
  rw [h.components, List.foldlM_cons, hentered]
  rfl

theorem find?_of_isName (h : Path.IsName path) : fs.find? [path] = fs.nodes.lookup [path] := by
  rw [find?, if_neg]
  simpa using h.not_root

theorem read_of_isName (h : Path.IsName path)
    (hfile : fs.nodes.lookup [path] = some (.file contents)) : fs.read path = .ok contents := by
  rw [read, resolve_of_isName h, ok_bind, find?_of_isName h, hfile]
  simp only [h.file]
  rfl

theorem write_of_isName (h : Path.IsName path) (hnew : fs.nodes.lookup [path] = none) :
    fs.write path contents = .ok (fs.insert [path] (.file contents)) := by
  rw [write, resolve_of_isName h, ok_bind, find?_of_isName h, hnew, h.file]
  rfl

end FileSystem

/-! ## The commands -/

namespace CommandLine

open CommandScript

variable {c : Context} {job : SigningJob} {v : SecureVariable} {w w' : Workspace}
  {checked : CheckedJob}

/-- What a job is about: the variable that its argument names, and the lists in its file. -/
structure JobInputs (files : FileSystem) (job : SigningJob) (v : SecureVariable)
    (lists : Bytes) : Prop where
  named : SecureVariable.ofName? job.variableName = some v
  holds : files.read job.lists = .ok lists

theorem readsOnly_load (job : SigningJob) : job.load.run.ReadsOnly :=
  readsOnly_bind (readsOnly_check _ _) fun _ =>
    readsOnly_bind (readsOnly_check _ _) fun _ =>
      readsOnly_bind (readsOnly_readFile _) fun _ =>
        readsOnly_bind (readsOnly_check _ _) fun _ => readsOnly_pure _

/-- A job is accepted: its lists can be requested for its variable. -/
def Accepts (files : FileSystem) (job : SigningJob) (checked : CheckedJob) : Prop :=
  ∃ lists, JobInputs files job checked.variableId lists ∧
    SigningRequest.ofLists checked.variableId job.append lists = .ok checked.request

theorem run_load_eq_ok :
    job.load.run.run w = (.ok checked, w') ↔ Accepts w.files job checked ∧ w' = w := by
  obtain ⟨v, r⟩ := checked
  rw [SigningJob.load, run_bind_of_reads run_check_eq_ok]
  constructor
  · rintro ⟨v', hv, h⟩
    obtain ⟨_, -, h⟩ := (run_bind_of_reads run_check_eq_ok).1 h
    obtain ⟨lists, hlists, h⟩ := (run_bind_of_reads run_readFile_eq_ok).1 h
    obtain ⟨r', hrequest, h⟩ := (run_bind_of_reads run_check_eq_ok).1 h
    cases h
    exact ⟨⟨lists, ⟨SecureVariable.ofName_eq_ok.1 hv, hlists⟩, hrequest⟩, rfl⟩
  · rintro ⟨⟨lists, ⟨hv, hlists⟩, hrequest⟩, rfl⟩
    obtain ⟨henvelope, -, -⟩ := SigningRequest.ofLists_eq_ok.1 hrequest
    refine ⟨v, SecureVariable.ofName_eq_ok.2 hv, ?_⟩
    refine (run_bind_of_reads run_check_eq_ok).2 ⟨(), henvelope, ?_⟩
    refine (run_bind_of_reads run_readFile_eq_ok).2 ⟨lists, hlists, ?_⟩
    exact (run_bind_of_reads run_check_eq_ok).2 ⟨r, hrequest, rfl⟩

/-- The signer that the files of a certificate and a key make. -/
def HasSigner (files : FileSystem) (password : Option String) (f : SignerFiles)
    (signer : Signer) : Prop :=
  ∃ certificate c text k, files.read f.certificate = .ok certificate ∧
    Crypto.Certificate.ofBytes certificate = .ok c ∧ files.read f.key = .ok text ∧
    Crypto.PrivateKey.ofPem text password = .ok k ∧ Signer.ofKey c k = .ok signer

/-- A certificate is read from a file that is there. -/
theorem readCertificate_eq_ok {path : String} {certificate : Crypto.Certificate} :
    ((readCertificate path).run w).1 = .ok certificate ↔ ∃ contents,
      w.files.read path = .ok contents ∧ Crypto.Certificate.ofBytes contents = .ok certificate := by
  rw [run_readCertificate, FileSystem.contains]
  cases w.files.read path with
  | ok contents => simp
  | error e => cases e <;> simp

theorem run_loadSigner_eq_ok {files : SignerFiles} {signer : Signer} :
    (c.loadSigner files).run.run w = (.ok signer, w') ↔
      HasSigner w.files c.settings.keyPassword files signer ∧ w' = w := by
  have hworkspace : ((readCertificate files.certificate).run w).2 = w := by
    rw [run_readCertificate]
  rw [Context.loadSigner, run_lift_bind, hworkspace, run_bind_of_reads run_check_eq_ok]
  simp only [readCertificate_eq_ok, HasSigner, run_lift_bind, Script.run_readFile]
  constructor
  · rintro ⟨certificate, ⟨contents, hcontents, hcertificate⟩, h⟩
    cases htext : w.files.read files.key with
    | error e =>
      rw [htext] at h
      cases h
    | ok text =>
      rw [htext] at h
      obtain ⟨_, _, hpure, h⟩ := run_bind_eq_ok.1 h
      cases hpure
      obtain ⟨k, hk, h⟩ := (run_bind_of_reads run_check_eq_ok).1 h
      obtain ⟨hsigner, hw⟩ := run_check_eq_ok.1 h
      exact ⟨⟨contents, certificate, text, k, hcontents, hcertificate, rfl, hk, hsigner⟩, hw⟩
  · rintro ⟨⟨contents, certificate, text, k, hcontents, hcertificate, htext, hk, hsigner⟩, rfl⟩
    refine ⟨certificate, ⟨contents, hcontents, hcertificate⟩, ?_⟩
    rw [htext]
    refine run_bind_eq_ok.2 ⟨text, w', rfl, ?_⟩
    exact (run_bind_of_reads run_check_eq_ok).2 ⟨k, hk, run_check_eq_ok.2 ⟨hsigner, rfl⟩⟩

theorem HasSigner.leavesSignature {files : FileSystem} {password : Option String}
    {f : SignerFiles} {signer : Signer} (h : HasSigner files password f signer) :
    signer.LeavesSignature := by
  obtain ⟨-, _, -, _, -, -, -, -, hsigner⟩ := h
  exact Signer.ofKey_leavesSignature hsigner

/-- The files of a signer: those that are given, else those that are set. -/
def Context.Chooses (c : Context) (given : Option SignerFiles) (f : SignerFiles) : Prop :=
  given = some f ∨ given = none ∧ c.settings.certificate = some f.certificate ∧
    c.settings.key = some f.key

theorem run_signer_eq_ok {given : Option SignerFiles} {signer : Signer} :
    (c.signer given).run.run w = (.ok (some signer), w') ↔
      (∃ f, c.Chooses given f ∧ HasSigner w.files c.settings.keyPassword f signer) ∧ w' = w := by
  have hload (f : SignerFiles) : (some <$> c.loadSigner f).run.run w = (.ok (some signer), w') ↔
      HasSigner w.files c.settings.keyPassword f signer ∧ w' = w := by
    rw [map_eq_bind, run_bind_eq_ok]
    constructor
    · rintro ⟨signer', w₁, hsigner, hpure⟩
      cases hpure
      exact run_loadSigner_eq_ok.1 hsigner
    · exact fun h => ⟨signer, w', run_loadSigner_eq_ok.2 h, rfl⟩
  unfold Context.signer Context.Chooses
  cases given with
  | some f =>
    rw [hload]
    simp
  | none =>
    cases c.settings.certificate <;> cases c.settings.key
    case some.some certificate key =>
      rw [hload]
      constructor
      · rintro ⟨hsigner, rfl⟩
        exact ⟨⟨⟨certificate, key⟩, .inr ⟨rfl, rfl, rfl⟩, hsigner⟩, rfl⟩
      · rintro ⟨⟨⟨_, _⟩, hgiven | ⟨-, hchosen, hchosenKey⟩, hsigner⟩, rfl⟩
        · cases hgiven
        · cases hchosen
          cases hchosenKey
          exact ⟨hsigner, rfl⟩
    -- without both settings there is no signer
    all_goals exact iff_of_false (fun h => by cases h) (by simp)

/-- The time of a write: the one that is given, else now. -/
def Context.time (c : Context) : Option String → Except TimestampError Timestamp
  | some text => Timestamp.parse text
  | none => .ok c.timestamp

theorem timeOf_eq (c : Context) (text : Option String) :
    c.timeOf text = check .timestamp (c.time text) := by
  cases text with
  | none =>
    -- the time of now is a long computation, and is not to be opened
    have hnow (now : Timestamp) : (do
        let given ← (pure none : CommandScript (Option Timestamp))
        pure (given.getD now)) = check .timestamp (.ok now) := rfl
    rw [Context.timeOf, Context.givenTime]
    exact hnow c.timestamp
  | some text =>
    rw [Context.timeOf, Context.givenTime, Context.time]
    cases Timestamp.parse text <;> rfl

theorem run_timeOf_eq_ok {text : Option String} {t : Timestamp} :
    (c.timeOf text).run.run w = (.ok t, w') ↔ c.time text = .ok t ∧ w' = w := by
  rw [timeOf_eq]
  exact run_check_eq_ok

/-- What signing a job makes of the files there are: the request of the job, its envelope by the
signer that is chosen, and the bytes of that. -/
structure Signs (c : Context) (files : FileSystem) (job : SigningJob) (given : Option SignerFiles)
    (checked : CheckedJob) (signer : Signer) (e : Envelope) (envelope : Bytes) : Prop where
  accepts : Accepts files job checked
  chosen : ∃ f, c.Chooses given f ∧ HasSigner files c.settings.keyPassword f signer
  signed : ∃ t, c.time job.timestamp = .ok t ∧ checked.request.sign signer t = .ok e
  encoded : e.encode = .ok envelope

/-- What is told of a signed write. -/
def signedAnswer : CheckedJob → Signer → Envelope → Bytes → String → Json
  | ⟨v, r⟩, signer, e, envelope, output => answerWith
    s!"Signed {v.name} update as {signer.subject}, wrote {envelope.length} bytes to {output}"
    (("bytes", .natural envelope.length) :: signingMembers v r.attributes e.timestamp)

/-- A write is signed if an envelope is made of its job, and the output takes it. -/
theorem run_signUpdate_eq_ok {given : Option SignerFiles} {output : String} {answer : Json} :
    (signUpdate c job given output).run.run w = (.ok answer, w') ↔
      ∃ checked signer e envelope files, Signs c w.files job given checked signer e envelope ∧
        w.files.write output envelope = .ok files ∧ w' = { w with files } ∧
        answer = signedAnswer checked signer e envelope output := by
  rw [signUpdate]
  constructor
  · intro h
    obtain ⟨⟨v, r⟩, haccepts, h⟩ := (run_bind_of_reads run_load_eq_ok).1 h
    obtain ⟨found, w₁, hfound, h⟩ := run_bind_eq_ok.1 h
    cases found with
    | none => cases h
    | some signer =>
      obtain ⟨hchosen, hw⟩ := run_signer_eq_ok.1 hfound
      rw [hw] at h
      obtain ⟨t, ht, h⟩ := (run_bind_of_reads run_timeOf_eq_ok).1 h
      obtain ⟨e, hsigned, h⟩ := (run_bind_of_reads run_check_eq_ok).1 h
      obtain ⟨envelope, hencoded, h⟩ := (run_bind_of_reads run_check_eq_ok).1 h
      obtain ⟨_, w₂, hwrite, h⟩ := run_bind_eq_ok.1 h
      obtain ⟨files, hfiles, rfl⟩ := run_writeFile_eq_ok.1 hwrite
      cases h
      exact ⟨⟨v, r⟩, signer, e, envelope, files,
        ⟨haccepts, hchosen, ⟨t, ht, hsigned⟩, hencoded⟩, hfiles, rfl, rfl⟩
  · rintro ⟨checked, signer, e, envelope, files, ⟨haccepts, hchosen, ⟨t, ht, hsigned⟩, hencoded⟩,
      hfiles, rfl, rfl⟩
    refine (run_bind_of_reads run_load_eq_ok).2 ⟨checked, haccepts, ?_⟩
    refine run_bind_eq_ok.2 ⟨some signer, w, run_signer_eq_ok.2 ⟨hchosen, rfl⟩, ?_⟩
    refine (run_bind_of_reads run_timeOf_eq_ok).2 ⟨t, ht, ?_⟩
    refine (run_bind_of_reads run_check_eq_ok).2 ⟨e, hsigned, ?_⟩
    refine (run_bind_of_reads run_check_eq_ok).2 ⟨envelope, hencoded, ?_⟩
    exact run_bind_eq_ok.2 ⟨(), _, run_writeFile_eq_ok.2 ⟨files, hfiles, rfl⟩, rfl⟩

/-- A job that is refused is neither signed nor prepared. -/
theorem signUpdate_of_refused {failure : Failure} {given : Option SignerFiles} {output : String}
    (h : job.load.run.run w = (.error failure, w')) :
    (signUpdate c job given output).run.run w = (.error failure, w') ∧
      (signUpdate c job given output).run.writes w = [] :=
  ⟨run_bind_of_error h, writes_bind_of_error (readsOnly_load job) h⟩

theorem prepareSigning_of_refused {failure : Failure} {bundle : String} {message : Option String}
    (h : job.load.run.run w = (.error failure, w')) :
    (prepareSigning c job bundle message).run.run w = (.error failure, w') ∧
      (prepareSigning c job bundle message).run.writes w = [] :=
  ⟨run_bind_of_error h, writes_bind_of_error (readsOnly_load job) h⟩

/-- A job is accepted as the write of a signed envelope around its lists is planned. -/
theorem exists_run_load_iff_exists_plan {e : Envelope} {envelope : Bytes} {u : Update}
    (hinputs : JobInputs w.files job v e.payload) (hparse : Envelope.parse envelope = .ok e)
    (hsigned : e.isUnsigned = false) (hu : u.PutsBack v envelope job.append)
    (read : VariableReader) :
    (∃ checked w', job.load.run.run w = (.ok checked, w')) ↔ ∃ p, u.plan read = .ok p := by
  rw [← SigningRequest.exists_ofLists_iff_exists_plan hu hparse hsigned read]
  constructor
  · rintro ⟨checked, w', hload⟩
    obtain ⟨⟨lists, ⟨hnamed, hholds⟩, hrequest⟩, -⟩ := run_load_eq_ok.1 hload
    cases hnamed.symm.trans hinputs.named
    cases hholds.symm.trans hinputs.holds
    exact ⟨_, hrequest⟩
  · rintro ⟨r, hrequest⟩
    exact ⟨⟨v, r⟩, w, run_load_eq_ok.2 ⟨⟨e.payload, hinputs, hrequest⟩, rfl⟩⟩

theorem Signs.makesEnvelope {files : FileSystem} {given : Option SignerFiles} {signer : Signer}
    {e : Envelope} {envelope : Bytes} (h : Signs c files job given checked signer e envelope) :
    checked.request.MakesEnvelope e := by
  obtain ⟨f, -, hsigner⟩ := h.chosen
  obtain ⟨t, -, hsigned⟩ := h.signed
  exact .signed hsigner.leavesSignature hsigned

/-! ## The main result -/

/-- **What is signed away from the store is written as it was signed.**  A job is accepted exactly
if the write of a signed envelope around its lists is planned.  Whatever envelope is then made of
the job, with a signer at hand or with a signature that comes back for its bundle, is planned to
be written as it is, with the attributes that were signed, over any store.  So it is with the
envelope that the command saves, and these are the attributes it tells.  Where a job is refused,
nothing is signed or prepared, and nothing written. -/
theorem signed_as_planned (c : Context) (job : SigningJob) (given : Option SignerFiles)
    (output : String) (w : Workspace) :
    (∀ v e envelope (u : Update) read, JobInputs w.files job v e.payload →
      Envelope.parse envelope = .ok e → e.isUnsigned = false →
      u.PutsBack v envelope job.append →
        ((∃ checked w', job.load.run.run w = (.ok checked, w')) ↔ ∃ p, u.plan read = .ok p)) ∧
      (∀ checked w' e envelope (u : Update) read, job.load.run.run w = (.ok checked, w') →
        checked.request.MakesEnvelope e → e.encode = .ok envelope →
        u.PutsBack checked.variableId envelope job.append →
          u.plan read = .ok (.write checked.request.attributes envelope)) ∧
      (∀ answer w', (signUpdate c job given output).run.run w = (.ok answer, w') →
        ∃ checked signer e envelope, Signs c w.files job given checked signer e envelope ∧
          w.files.write output envelope = .ok w'.files ∧
          answer = signedAnswer checked signer e envelope output ∧
          ∀ (u : Update) read, u.PutsBack checked.variableId envelope job.append →
            u.plan read = .ok (.write checked.request.attributes envelope)) ∧
      ∀ failure w', job.load.run.run w = (.error failure, w') →
        ((signUpdate c job given output).run.run w = (.error failure, w') ∧
          (signUpdate c job given output).run.writes w = []) ∧
        ∀ bundle message,
          (prepareSigning c job bundle message).run.run w = (.error failure, w') ∧
            (prepareSigning c job bundle message).run.writes w = [] := by
  refine ⟨?accepted, ?made, ?saved, ?refused⟩
  case accepted =>
    intro v e envelope u read hinputs hparse hsigned hu
    exact exists_run_load_iff_exists_plan hinputs hparse hsigned hu read
  case made =>
    intro checked w' e envelope u read hload hmade hencode hu
    obtain ⟨⟨lists, -, hrequest⟩, -⟩ := run_load_eq_ok.1 hload
    exact hmade.plan hrequest hencode hu read
  case saved =>
    intro answer w' hrun
    obtain ⟨checked, signer, e, envelope, files, hsigns, hwrite, rfl, rfl⟩ :=
      run_signUpdate_eq_ok.1 hrun
    refine ⟨checked, signer, e, envelope, hsigns, hwrite, rfl, fun u read hu => ?_⟩
    obtain ⟨lists, -, hrequest⟩ := hsigns.accepts
    exact hsigns.makesEnvelope.plan hrequest hsigns.encoded hu read
  case refused =>
    intro failure w' hload
    exact ⟨signUpdate_of_refused hload, fun _ _ => prepareSigning_of_refused hload⟩

/-! ## A signed append -/

/-- The certificate of the keeper. -/
def keeperCertificate : Bytes := (keeper.map (·.certificate)).getD []

/-- The key of the keeper in text armour. -/
def keeperKey : Bytes :=
  ((Crypto.RsaPrivateKey.ofPrimes? ((1 <<< 256) - 189) ((1 <<< 255) - 19)).map fun key =>
    Bytes.ofString key.toPem).getD []

/-- A workspace with lists, and with the certificate and the key of the keeper. -/
def keeperWorkspace : Workspace where
  files := ⟨[(["l"], .file mixedBlocks.flatten), (["c"], .file keeperCertificate),
    (["k"], .file keeperKey)]⟩

/-- Appends the lists to a variable at the first moment of the year 2025. -/
def appendJob (v : SecureVariable) : SigningJob where
  variableName := v.name
  lists := "l"
  append := true
  timestamp := some "2025-01-01 00:00:00"

/-- The request that `appendJob` makes for db. -/
def dbAppend : SigningRequest :=
  ⟨"db", .imageSecurityDatabase, Update.writeAttributes .db true, mixedBlocks.flatten⟩

/-- A context without settings. -/
def bareContext : Context := ⟨{}, true, ⟨[], 0, []⟩⟩

theorem isName_letters : ∀ path ∈ ["l", "c", "k", "o"], Path.IsName path := by
  intro path h
  simp only [List.mem_cons, List.not_mem_nil, or_false] at h
  rcases h with rfl | rfl | rfl | rfl
  all_goals
    exact Path.IsFileName.isName ⟨by decide, by decide, by decide, by decide⟩ (by decide +kernel)
      (by cbv)

theorem appendJob_inputs (v : SecureVariable) :
    JobInputs keeperWorkspace.files (appendJob v) v mixedBlocks.flatten :=
  ⟨SecureVariable.ofName?_name v, FileSystem.read_of_isName (isName_letters "l" (by simp)) rfl⟩

theorem ofLists_dbAppend : SigningRequest.ofLists .db true mixedBlocks.flatten = .ok dbAppend := by
  have hparse : (parseDatabase mixedBlocks.flatten).isOk = true := by decide +kernel
  refine SigningRequest.ofLists_eq_ok.2 ⟨rfl, ?_, rfl⟩
  cases h : parseDatabase mixedBlocks.flatten with
  | error e =>
    rw [h] at hparse
    cases hparse
  | ok ls =>
    rw [SigningRequest.checkLists, if_pos rfl, if_neg (by decide), h]
    rfl

/-- The keeper signs the append to db. -/
theorem appendJob_signs : ∃ signer e envelope,
    Signs bareContext keeperWorkspace.files (appendJob .db) (some ⟨"c", "k"⟩) ⟨.db, dbAppend⟩
      signer e envelope := by
  -- the certificate and the key are computed and read here, and the signature is made
  have hsigns : (do
      let certificate ← (Crypto.Certificate.ofBytes keeperCertificate).mapError AuthError.crypto
      let key ← (Crypto.PrivateKey.ofPem keeperKey none).mapError AuthError.crypto
      let signer ← Signer.ofKey certificate key
      let e ← dbAppend.sign signer SigningState.newYear
      e.encode).toOption.isSome = true := by
    decide +kernel
  obtain ⟨envelope, henvelope⟩ := Option.isSome_iff_exists.1 hsigns
  have hencoded := toOption_eq_some.1 henvelope
  simp only [bind_eq_ok, mapError_eq_ok] at hencoded
  obtain ⟨certificate, hcertificate, key, hkey, signer, hsigner, e, hsign, hencoded⟩ := hencoded
  have htime : bareContext.time (appendJob .db).timestamp = .ok SigningState.newYear := by
    decide
  have hfiles : HasSigner keeperWorkspace.files none ⟨"c", "k"⟩ signer :=
    ⟨keeperCertificate, certificate, keeperKey, key,
      FileSystem.read_of_isName (isName_letters "c" (by simp)) rfl, hcertificate,
      FileSystem.read_of_isName (isName_letters "k" (by simp)) rfl, hkey, hsigner⟩
  exact ⟨signer, e, envelope, ⟨mixedBlocks.flatten, appendJob_inputs .db, ofLists_dbAppend⟩,
    ⟨_, .inl rfl, hfiles⟩, ⟨SigningState.newYear, htime, hsign⟩, hencoded⟩

/-- The update that appends an envelope. -/
def appendUpdate (v : SecureVariable) (envelope : Bytes) : Update where
  target := v
  action := .preSigned envelope true
  timestamp := SigningState.newYear

/-- The append to db is signed, and the envelope is planned as it was signed.  The same append to
PK is not planned, and neither accepted nor signed. -/
theorem appendJob_signed_as_planned :
    (∃ e envelope, JobInputs keeperWorkspace.files (appendJob .db) .db e.payload ∧
      Envelope.parse envelope = .ok e ∧ e.isUnsigned = false ∧
      (appendUpdate .db envelope).plan nothingStored =
        .ok (.write dbAppend.attributes envelope) ∧
      ¬∃ p, (appendUpdate .pk envelope).plan nothingStored = .ok p) ∧
    (∃ answer w' envelope, ∃ checked : CheckedJob,
      (signUpdate bareContext (appendJob .db) (some ⟨"c", "k"⟩) "o").run.run keeperWorkspace =
        (.ok answer, w') ∧
      keeperWorkspace.files.write "o" envelope = .ok w'.files ∧
      (appendUpdate checked.variableId envelope).plan nothingStored =
        .ok (.write checked.request.attributes envelope)) ∧
    ∃ failure w', (appendJob .pk).load.run.run keeperWorkspace = (.error failure, w') ∧
      (signUpdate bareContext (appendJob .pk) (some ⟨"c", "k"⟩) "o").run.writes
        keeperWorkspace = [] := by
  obtain ⟨signer, e, envelope, hsigns⟩ := appendJob_signs
  obtain ⟨hpayload, hsigned⟩ := hsigns.makesEnvelope.carries
  have hparse := Envelope.parse_of_encode hsigns.encoded
  have hinputs (v : SecureVariable) :
      JobInputs keeperWorkspace.files (appendJob v) v e.payload := by
    rw [hpayload]
    exact appendJob_inputs v
  have hputs (v : SecureVariable) (bytes : Bytes) : (appendUpdate v bytes).PutsBack v bytes true :=
    ⟨rfl, rfl⟩
  obtain ⟨-, hmade, hsaved, -⟩ :=
    signed_as_planned bareContext (appendJob .db) (some ⟨"c", "k"⟩) "o" keeperWorkspace
  obtain ⟨haccepted, -, -, hrefused⟩ :=
    signed_as_planned bareContext (appendJob .pk) (some ⟨"c", "k"⟩) "o" keeperWorkspace
  have hplan := hmade _ _ e envelope _ nothingStored (run_load_eq_ok.2 ⟨hsigns.accepts, rfl⟩)
    hsigns.makesEnvelope hsigns.encoded (hputs .db envelope)
  have hwrite : keeperWorkspace.files.write "o" envelope = .ok _ :=
    FileSystem.write_of_isName (isName_letters "o" (by simp)) rfl
  have hrun := run_signUpdate_eq_ok.2 ⟨_, _, _, _, _, hsigns, hwrite, rfl, rfl⟩
  obtain ⟨checked, -, -, bytes, -, hbytes, -, hplans⟩ := hsaved _ _ hrun
  have hpk := haccepted .pk e envelope _ nothingStored (hinputs .pk) hparse hsigned
    (hputs .pk envelope)
  have hunplanned : ¬∃ p, (appendUpdate .pk envelope).plan nothingStored = .ok p := by
    rw [← SigningRequest.exists_ofLists_iff_exists_plan (hputs .pk envelope) hparse hsigned]
    rintro ⟨r, hrequest⟩
    cases hrequest
  refine ⟨⟨e, envelope, hinputs .db, hparse, hsigned, hplan, hunplanned⟩,
    ⟨_, _, bytes, checked, hrun, hbytes, hplans _ nothingStored (hputs _ bytes)⟩, ?_⟩
  rcases hload : (appendJob .pk).load.run.run keeperWorkspace with ⟨failure | refused, w'⟩
  · obtain ⟨⟨-, hnothing⟩, -⟩ := hrefused failure w' hload
    exact ⟨failure, w', rfl, hnothing⟩
  · exact absurd (hpk.1 ⟨refused, w', hload⟩) hunplanned

end CommandLine

end SecureBoot
