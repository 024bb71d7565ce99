import SecureBoot.Proofs.JsonText
import SecureBoot.Proofs.SigningBundles

/-!
# A bundle leaves as a file and comes back

`SigningState.exported_imported`: what is prepared for a signature can leave as the
text of a bundle, and what is read from the text is what was prepared.

Records are read back field by field (`Json.fields?_ofMembers`), timestamps and bundles as
records (`Timestamp.ofJson?_toJson`, `SigningBundle.ofValue?_toValue`), and bundles from
their text (`SigningBundle.ofJson_toJson`).
-/

namespace SecureBoot

/-! ## Records -/

namespace Json

theorem filter_name_of_mem {ms : List (String × Json)} (hnames : (ms.map Prod.fst).Nodup)
    {m : String × Json} (hm : m ∈ ms) : ms.filter (fun m' => m'.1 = m.1) = [m] := by
  induction ms with
  | nil => cases hm
  | cons first ms ih =>
    rw [List.map_cons, List.nodup_cons] at hnames
    rcases List.mem_cons.1 hm with rfl | hrest
    · have hnone : ms.filter (fun m' => m'.1 = m.1) = [] := by
        rw [List.filter_eq_nil_iff]
        intro m' hm' heq
        rw [← of_decide_eq_true heq] at hnames
        exact hnames.1 (List.mem_map_of_mem hm')
      simp [hnone]
    · have hother : first.1 ≠ m.1 := by
        intro heq
        rw [heq] at hnames
        exact hnames.1 (List.mem_map_of_mem hrest)
      rw [List.filter_cons_of_neg (by simpa using hother), ih hnames.2 hrest]

/-- The value of a name that stands once. -/
theorem member?_of_mem {ms : List (String × Json)} (hnames : (ms.map Prod.fst).Nodup)
    {m : String × Json} (hm : m ∈ ms) :
    member? (ms.map fun (name, v) => (some name, v)) m.1 = some m.2 := by
  have honly : ms.filter (fun m' => m'.1 = m.1) = [m] := filter_name_of_mem hnames hm
  simp [member?, List.filter_map, Function.comp_def, honly]

theorem mapM_names {f : String → Option Json} {ms : List (String × Json)}
    (h : ∀ m ∈ ms, f m.1 = some m.2) : (ms.map Prod.fst).mapM f = some (ms.map Prod.snd) := by
  induction ms with
  | nil => rfl
  | cons m ms ih =>
    obtain ⟨hm, hms⟩ := List.forall_mem_cons.1 h
    rw [List.map_cons, List.mapM_cons, hm, ih hms]
    rfl

/-- A record with names that differ is read field by field. -/
theorem fields?_ofMembers {names : List String} {values : List Json} (hnames : names.Nodup)
    (hlength : names.length = values.length) :
    fields? names (.ofMembers (names.zip values)) = some values := by
  have hfst : (names.zip values).map Prod.fst = names := List.map_fst_zip (by omega)
  have hsnd : (names.zip values).map Prod.snd = values := List.map_snd_zip (by omega)
  have hnamed : ((names.zip values).map fun (name, v) => (some name, v)).any (·.1.isNone) =
      false := by
    simp
  have hread := mapM_names fun m hm => member?_of_mem (hfst.symm ▸ hnames) hm
  rw [hfst, hsnd] at hread
  simp only [fields?, ofMembers, hnamed, hread, Bool.false_eq_true, if_false]

theorem exact_record {names : List String} {values : List Json} (hvalues : ∀ v ∈ values, Exact v) :
    Exact (.ofMembers (names.zip values)) := by
  refine .ofMembers fun m hm => hvalues m.2 ?_
  exact (List.of_mem_zip hm).2

theorem integer?_integer {low high n : Int} (hlow : low ≤ n) (hhigh : n ≤ high) :
    integer? low high (.integer n) = some n := by
  rw [integer?, if_pos ⟨hlow, hhigh⟩]

theorem natural?_natural {limit n : Nat} (hn : n < limit) :
    natural? limit (natural n) = some n := by
  rw [natural?, natural, integer?_integer (by omega) (by omega), Option.map_some, Int.toNat_natCast]

end Json

/-! ## Timestamps -/

namespace Timestamp

/-- A timestamp is read back from its record. -/
theorem ofJson?_toJson (t : Timestamp) : ofJson? t.toJson = some t := by
  have hyear : (Json.natural t.year.toNat).natural? UInt16.size = some t.year.toNat :=
    Json.natural?_natural t.year.toNat_lt
  have hbyte : ∀ b : UInt8, (Json.natural b.toNat).natural? UInt8.size = some b.toNat :=
    fun b => Json.natural?_natural b.toNat_lt
  have hnanosecond : (Json.natural t.nanosecond.toNat).natural? UInt32.size =
      some t.nanosecond.toNat := Json.natural?_natural t.nanosecond.toNat_lt
  have hzone : (Json.integer t.timeZone.toInt).integer? Int16.minValue.toInt Int16.maxValue.toInt =
      some t.timeZone.toInt := Json.integer?_integer t.timeZone.le_toInt t.timeZone.toInt_le
  rw [ofJson?, toJson, Json.fields?_ofMembers (by decide) rfl]
  simp only [Option.bind_eq_bind, Option.bind_some, hyear, hbyte, hnanosecond, hzone,
    UInt16.ofNat_toNat, UInt8.ofNat_toNat, UInt32.ofNat_toNat, Int16.ofInt_toInt]
  rfl

theorem exact_toJson (t : Timestamp) : t.toJson.Exact := by
  refine Json.exact_record ?_
  simp only [List.forall_mem_cons]
  exact ⟨.integer _, .integer _, .integer _, .integer _, .integer _, .integer _, .integer _,
    .integer _, .integer _, nofun⟩

end Timestamp

/-! ## Bundles -/

namespace SigningBundle

/-- A bundle is read back from its record, if its length is one of 64 bits. -/
theorem ofValue?_toValue {b : SigningBundle} (hlength : b.messageLength < UInt64.size) :
    ofValue? b.toValue = some b := by
  have hword : ∀ w : UInt32, (Json.natural w.toNat).natural? UInt32.size = some w.toNat :=
    fun w => Json.natural?_natural w.toNat_lt
  have htext : ∀ s, (Json.text s).text? = some s := fun _ => rfl
  rw [ofValue?, toValue, Json.fields?_ofMembers (by decide) rfl]
  simp [hword, htext, Guid.ofChars?_text, Timestamp.ofJson?_toJson, Json.natural?_natural hlength]

theorem exact_toValue (b : SigningBundle) : b.toValue.Exact := by
  refine Json.exact_record ?_
  simp only [List.forall_mem_cons]
  exact ⟨.integer _, .text _, .text _, .integer _, b.timestamp.exact_toJson, .text _, .text _,
    .integer _, nofun⟩

/-- **A bundle is read back from its text.** -/
theorem ofJson_toJson {b : SigningBundle} (hlength : b.messageLength < UInt64.size) :
    ofJson b.toJson = .ok b := by
  rw [ofJson, toJson, Json.parse?_pretty b.exact_toValue, Option.bind_some, ofValue?_toValue hlength]

end SigningBundle

/-! ## The main result -/

namespace SigningState

/-- **What is prepared leaves as a file and comes back.**  For every name, GUID, attributes,
payload and timestamp that is not zero, preparation, export, writing, reading and import all
succeed, and lead back to what was prepared.  The length of a message in memory is a number
of 64 bits. -/
theorem exported_imported {name : String} {g : Guid} {a : Attributes} {payload : Bytes}
    {t : Timestamp} (htimestamp : t.isZero = false)
    (hlength : (signedMessage name g a t payload).length < UInt64.size) :
    ∃ prepared exported, (start name g a payload).prepare t = .ok prepared ∧
      prepared.toBundle = .ok exported ∧ SigningBundle.ofJson exported.toJson = .ok exported ∧
      ofBundle exported = .ok prepared ∧
      prepared =
        awaitingSignature ⟨⟨name, g, a, payload⟩, t, signedMessage name g a t payload⟩ := by
  refine ⟨_, _, prepare_eq_ok.2 ⟨htimestamp, rfl⟩, rfl, ?_, ?_, rfl⟩
  · exact SigningBundle.ofJson_toJson hlength
  · exact ofBundle_of_message rfl htimestamp (Text.Base64.decode?_encode payload) rfl rfl rfl

/-- A quotation mark, a control character and a character of two units. -/
def quotedName : String := String.ofList ['"', '\x01', Char.ofNat 0x1D11E]

theorem quotedName_imported :
    newYear.isZero = false ∧ ∃ prepared exported,
      (start quotedName .imageSecurityDatabase .authenticatedDatabase [0xff]).prepare newYear =
        .ok prepared ∧ prepared.toBundle = .ok exported ∧
      SigningBundle.ofJson exported.toJson = .ok exported ∧ ofBundle exported = .ok prepared ∧
      prepared = awaitingSignature (pending
        ⟨quotedName, .imageSecurityDatabase, .authenticatedDatabase, [0xff]⟩ newYear) := by
  have htimestamp : newYear.isZero = false := by decide
  have hlength : (signedMessage quotedName .imageSecurityDatabase .authenticatedDatabase newYear
      [0xff]).length < UInt64.size := by
    decide +kernel
  exact ⟨htimestamp, exported_imported htimestamp hlength⟩

end SigningState

end SecureBoot
