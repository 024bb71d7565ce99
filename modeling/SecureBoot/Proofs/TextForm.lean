import SecureBoot.Guid
import SecureBoot.Text.Base64

/-!
# Text forms read back

What is written as text is read back as it was.

* `Text.numeral?_toDigits` — numerals of any base, and with zeros in front
  (`Text.hexadecimal?_hexPadded`, `Text.decimal?_toDigits`);
* `Guid.ofChars?_text` — the text of a GUID, whose digits are cut into groups;
* `Bytes.ofHex?_toHex` and `Text.Base64.decode?_encode` — bytes in hexadecimal and in base64.
-/

namespace SecureBoot

/-! ## Numerals -/

namespace Text

variable {base : Nat} {digit : Char → Option Nat}

/-- The value of digits that follow a number. -/
def accumulate (base : Nat) (digit : Char → Option Nat) (n : Nat) (cs : List Char) : Option Nat :=
  cs.foldlM (fun n c => (digit c).map (n * base + ·)) n

theorem numeral?_of_ne_nil {cs : List Char} (h : cs ≠ []) :
    numeral? base digit cs = accumulate base digit 0 cs := by
  cases cs with
  | nil => exact absurd rfl h
  | cons c cs => rfl

theorem accumulate_append (n : Nat) (cs cs' : List Char) :
    accumulate base digit n (cs ++ cs') =
      (accumulate base digit n cs).bind (accumulate base digit · cs') :=
  List.foldlM_append

/-- The digits of a number stand for it, also after zeros. -/
theorem accumulate_toDigits (hbase : 1 < base)
    (hdigit : ∀ k < base, digit k.digitChar = some k) (n : Nat) :
    accumulate base digit 0 (Nat.toDigits base n) = some n := by
  have hsingle : ∀ m, ∀ k < base, accumulate base digit m [k.digitChar] = some (m * base + k) := by
    intro m k hk
    simp [accumulate, hdigit k hk]
  induction n using Nat.base_induction base hbase with
  | single k hk =>
    rw [Nat.toDigits_of_lt_base hk, hsingle 0 k hk, Nat.zero_mul, Nat.zero_add]
  | digit m k hk hm ih =>
    rw [← Nat.toDigits_append_toDigits hbase hm hk, accumulate_append, ih, Option.bind_some,
      Nat.toDigits_of_lt_base hk, hsingle m k hk, Nat.mul_comm]

theorem accumulate_zeros (hzero : digit '0' = some 0) (count : Nat) :
    accumulate base digit 0 (List.replicate count '0') = some 0 := by
  induction count with
  | zero => rfl
  | succ count ih =>
    rw [accumulate, List.replicate_succ, List.foldlM_cons, hzero]
    simpa [accumulate] using ih

/-- **The digits of a number are read back**, with zeros in front or without. -/
theorem numeral?_padZeros (hbase : 1 < base)
    (hdigit : ∀ k < base, digit k.digitChar = some k) (width n : Nat) :
    numeral? base digit (padZeros width (Nat.toDigits base n)) = some n := by
  have hne : padZeros width (Nat.toDigits base n) ≠ [] := by
    rw [padZeros, ne_eq, List.append_eq_nil_iff]
    exact fun h => Nat.toDigits_ne_nil h.2
  have hzero : digit '0' = some 0 := hdigit 0 (by omega)
  rw [numeral?_of_ne_nil hne, padZeros, accumulate_append, accumulate_zeros hzero,
    Option.bind_some, accumulate_toDigits hbase hdigit]

/-- Every character of what is read as a number is a digit. -/
theorem isSome_of_accumulate {n m : Nat} {cs : List Char}
    (h : accumulate base digit n cs = some m) : ∀ c ∈ cs, (digit c).isSome = true := by
  induction cs generalizing n with
  | nil =>
    intro c hc
    cases hc
  | cons c cs ih =>
    rw [accumulate, List.foldlM_cons] at h
    obtain ⟨k, hk, hrest⟩ := Option.bind_eq_some_iff.1 h
    obtain ⟨d, hd, -⟩ := Option.map_eq_some_iff.1 hk
    rw [List.forall_mem_cons, hd]
    exact ⟨rfl, ih hrest⟩

theorem digitValue?_digitChar : ∀ k < 10, digitValue? k.digitChar = some k := by decide

theorem hexValue?_digitChar : ∀ k < 16, Bytes.hexValue? k.digitChar = some k := by decide

theorem decimal?_toDigits (n : Nat) : decimal? (Nat.toDigits 10 n) = some n := by
  have h := numeral?_padZeros (by decide) digitValue?_digitChar 0 n
  rwa [padZeros, Nat.zero_sub, List.replicate_zero, List.nil_append] at h

theorem hexadecimal?_hexPadded (width n : Nat) :
    hexadecimal? (hexPadded width n).toList = some n := by
  rw [hexPadded, String.toList_ofList]
  exact numeral?_padZeros (by decide) hexValue?_digitChar width n

theorem isSome_hexValue?_of_mem {width n : Nat} {c : Char} (hc : c ∈ (hexPadded width n).toList) :
    (Bytes.hexValue? c).isSome = true := by
  have hread := hexadecimal?_hexPadded width n
  rw [hexadecimal?, numeral?_of_ne_nil (List.ne_nil_of_mem hc)] at hread
  exact isSome_of_accumulate hread c hc

/-- A number that fits a width is written in this width. -/
theorem length_hexPadded {width n : Nat} (hwidth : 0 < width) (hn : n < Nat.pow 16 width) :
    (hexPadded width n).toList.length = width := by
  have hlength : (Nat.toDigits 16 n).length ≤ width :=
    (Nat.length_toDigits_le_iff (by decide) hwidth).2 hn
  rw [hexPadded, String.toList_ofList, padZeros, List.length_append, List.length_replicate]
  omega

end Text

/-! ## GUIDs -/

namespace Guid

/-- Groups of digits are read through the hyphens between them. -/
theorem ofHyphenated?_groups {a b c d e : List Char} (ha : a.length = 8) (hb : b.length = 4)
    (hc : c.length = 4) (hd : d.length = 4) (he : e.length = 12) :
    ofHyphenated? (a ++ '-' :: b ++ '-' :: c ++ '-' :: d ++ '-' :: e) =
      ofDigits? (a ++ b ++ c ++ d ++ e) := by
  simp (disch := omega) [ofHyphenated?, List.drop_append, List.drop_of_length_le,
    List.getElem?_append_right, List.getElem?_cons_zero, ha, hb, hc, hd, he]

theorem length_digits (g : Guid) : g.digits.length = 32 := by
  rw [digits, List.length_append, List.length_append, List.length_append,
    Text.length_hexPadded (by decide) g.data1.toNat_lt,
    Text.length_hexPadded (by decide) g.data2.toNat_lt,
    Text.length_hexPadded (by decide) g.data3.toNat_lt,
    Text.length_hexPadded (by decide) g.data4.toNat_lt]

theorem ofDigits?_digits (g : Guid) : ofDigits? g.digits = some g := by
  have h1 : (Text.hexPadded 8 g.data1.toNat).toList.length = 8 :=
    Text.length_hexPadded (by decide) g.data1.toNat_lt
  have h2 : (Text.hexPadded 4 g.data2.toNat).toList.length = 4 :=
    Text.length_hexPadded (by decide) g.data2.toNat_lt
  have h3 : (Text.hexPadded 4 g.data3.toNat).toList.length = 4 :=
    Text.length_hexPadded (by decide) g.data3.toNat_lt
  rw [ofDigits?, if_pos g.length_digits, digits]
  simp (disch := omega) [List.drop_append, List.drop_of_length_le, h1, h2,
    Text.hexadecimal?_hexPadded]

theorem length_text (g : Guid) : g.text.toList.length = 36 := by
  rw [text, String.toList_ofList, hyphenate]
  simp [g.length_digits]

theorem ofHyphenated?_text (g : Guid) : ofHyphenated? g.text.toList = some g := by
  have hlength := g.length_digits
  have hgroups : g.digits.take 8 ++ (g.digits.drop 8).take 4 ++ (g.digits.drop 12).take 4 ++
      (g.digits.drop 16).take 4 ++ g.digits.drop 20 = g.digits := by
    rw [← List.take_add, ← List.take_add, ← List.take_add, List.take_append_drop]
  rw [text, String.toList_ofList, hyphenate, ofHyphenated?_groups, hgroups, ofDigits?_digits]
  all_goals simp [hlength]

/-- The text of a GUID starts with a digit, not with a brace. -/
theorem text_ne_brace (g : Guid) (rest : List Char) : g.text.toList ≠ '\x7b' :: rest := by
  intro h
  have hlength : (Text.hexPadded 8 g.data1.toNat).toList.length = 8 :=
    Text.length_hexPadded (by decide) g.data1.toNat_lt
  have hfirst : g.text.toList.take 8 = (Text.hexPadded 8 g.data1.toNat).toList := by
    rw [text, String.toList_ofList, hyphenate, digits]
    simp [hlength]
  rw [h, List.take_succ_cons] at hfirst
  have hmem : '\x7b' ∈ (Text.hexPadded 8 g.data1.toNat).toList := by
    rw [← hfirst]
    exact List.mem_cons_self
  have hdigit := Text.isSome_hexValue?_of_mem hmem
  revert hdigit
  decide

/-- **The text of a GUID is read back.** -/
theorem ofChars?_text (g : Guid) : ofChars? g.text.toList = some g := by
  have hlength := g.length_text
  rw [ofChars?]
  · rw [if_neg (by omega), if_neg (by omega), ofHyphenated?_text]
  · exact g.text_ne_brace

end Guid

/-! ## Bytes in hexadecimal -/

namespace Bytes

theorem hexValue?_hexDigit : ∀ n < 16, hexValue? (hexDigit n) = some n := by decide

theorem toLower_hexDigit : ∀ n < 16, (hexDigit n).toLower = hexDigit n := by decide

/-- The digits of a byte are read as the byte, in front of any others. -/
theorem ofHexChars?_hexOfByte (b : UInt8) (cs : List Char) :
    ofHexChars? (hexOfByte b ++ cs) = (ofHexChars? cs).map (b :: ·) := by
  have hb : b.toNat < 256 := b.toNat_lt
  have hjoin : UInt8.ofNat (16 * (b.toNat / 16) + b.toNat % 16) = b := by
    rw [Nat.div_add_mod, UInt8.ofNat_toNat]
  rw [hexOfByte, List.cons_append, List.singleton_append, ofHexChars?,
    hexValue?_hexDigit _ (by omega), hexValue?_hexDigit _ (by omega)]
  cases ofHexChars? cs with
  | none => rfl
  | some bs => exact congrArg (fun x => some (x :: bs)) hjoin

theorem ofHexChars?_flatMap (bs : Bytes) : ofHexChars? (bs.flatMap hexOfByte) = some bs := by
  induction bs with
  | nil => rfl
  | cons b bs ih => rw [List.flatMap_cons, ofHexChars?_hexOfByte, ih, Option.map_some]

/-- Bytes are read back from their hexadecimal text. -/
theorem ofHex?_toHex (bs : Bytes) : ofHex? bs.toHex = some bs := by
  rw [ofHex?, toHex, String.toList_ofList, ofHexChars?_flatMap]

/-- The digits of bytes are in lower case. -/
theorem map_toLower_toHex (bs : Bytes) : bs.toHex.toList.map Char.toLower = bs.toHex.toList := by
  rw [toHex, String.toList_ofList]
  induction bs with
  | nil => rfl
  | cons b bs ih =>
    have hb : b.toNat < 256 := b.toNat_lt
    have hbyte : (hexOfByte b).map Char.toLower = hexOfByte b := by
      rw [hexOfByte, List.map_cons, List.map_cons, List.map_nil, toLower_hexDigit _ (by omega),
        toLower_hexDigit _ (by omega)]
    rw [List.flatMap_cons, List.map_append, hbyte, ih]

end Bytes

/-! ## Base64 -/

namespace Text.Base64

theorem value?_digit : ∀ n < 64, value? (digit n) = some n := by decide

theorem digit_ne_pad : ∀ n < 64, digit n ≠ '=' := by decide

theorem decodeChars?_cons {strict : Bool} {a b c d : Char} {rest : List Char} (hd : d ≠ '=') :
    decodeChars? strict (a :: b :: c :: d :: rest) = (do
      let x ← value? a
      let y ← value? b
      let z ← value? c
      let w ← value? d
      let after ← decodeChars? strict rest
      return UInt8.ofNat (x * 4 + y / 16) :: UInt8.ofNat (y % 16 * 16 + z / 4) ::
        UInt8.ofNat (z % 4 * 64 + w) :: after) := by
  rw [decodeChars?]
  · exact fun _ h _ => hd h
  · exact fun h _ => hd h

theorem decodeChars?_encodeChars (strict : Bool) (bs : Bytes) :
    decodeChars? strict (encodeChars bs) = some bs := by
  induction bs using encodeChars.induct with
  | case1 => rfl
  | case2 a =>
    have ha : a.toNat < 256 := a.toNat_lt
    have hpad : a.toNat % 4 * 16 % 16 = 0 := by omega
    have hbyte : a.toNat / 4 * 4 + a.toNat % 4 * 16 / 16 = a.toNat := by omega
    simp only [encodeChars, decodeChars?, value?_digit (a.toNat / 4) (by omega),
      value?_digit (a.toNat % 4 * 16) (by omega), hpad, hbyte, bind, Option.bind, bne_self_eq_false,
      Bool.and_false, Bool.false_eq_true, if_false, UInt8.ofNat_toNat]
  | case3 a b =>
    have ha : a.toNat < 256 := a.toNat_lt
    have hb : b.toNat < 256 := b.toNat_lt
    have hpad : b.toNat % 16 * 4 % 4 = 0 := by omega
    have hfirst : a.toNat / 4 * 4 + (a.toNat % 4 * 16 + b.toNat / 16) / 16 = a.toNat := by omega
    have hsecond : (a.toNat % 4 * 16 + b.toNat / 16) % 16 * 16 + b.toNat % 16 * 4 / 4 =
        b.toNat := by omega
    have hne : digit (b.toNat % 16 * 4) ≠ '=' := digit_ne_pad _ (by omega)
    simp only [encodeChars, decodeChars?, value?_digit (a.toNat / 4) (by omega),
      value?_digit (a.toNat % 4 * 16 + b.toNat / 16) (by omega),
      value?_digit (b.toNat % 16 * 4) (by omega), hpad, hfirst, hsecond, bind, Option.bind,
      bne_self_eq_false, Bool.and_false, Bool.false_eq_true, if_false, UInt8.ofNat_toNat]
  | case4 a b c rest ih =>
    have ha : a.toNat < 256 := a.toNat_lt
    have hb : b.toNat < 256 := b.toNat_lt
    have hc : c.toNat < 256 := c.toNat_lt
    have hfirst : a.toNat / 4 * 4 + (a.toNat % 4 * 16 + b.toNat / 16) / 16 = a.toNat := by omega
    have hsecond : (a.toNat % 4 * 16 + b.toNat / 16) % 16 * 16 +
        (b.toNat % 16 * 4 + c.toNat / 64) / 4 = b.toNat := by omega
    have hthird : (b.toNat % 16 * 4 + c.toNat / 64) % 4 * 64 + c.toNat % 64 = c.toNat := by omega
    rw [encodeChars, decodeChars?_cons (digit_ne_pad _ (by omega)), ih,
      value?_digit _ (by omega), value?_digit _ (by omega), value?_digit _ (by omega),
      value?_digit _ (by omega)]
    simp only [bind, Option.bind, hfirst, hsecond, hthird, UInt8.ofNat_toNat]
    rfl

/-- **Bytes are read back from base64.** -/
theorem decode?_encode (bs : Bytes) : decode? (encode bs) = some bs := by
  rw [decode?, encode, String.toList_ofList, decodeChars?_encodeChars]

end Text.Base64

end SecureBoot
