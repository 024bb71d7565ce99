import Mathlib.Data.List.DropRight
import Mathlib.Tactic.SplitIfs
import SecureBoot.Json
import SecureBoot.Proofs.TextForm

/-!
# Values read back from their text

`Json.parse?_pretty`: a value is read back from the text that `Json.pretty` writes,
if its numbers are whole and its texts have no lone surrogates (`Json.Exact`).

Each kind of value has a lemma of its own, which says that its text is read back
in front of whatever follows (`Json.ReadsBack`).  What follows must not go on with a
number (`Json.Ends`), and the length of the text is fuel enough.
-/

namespace SecureBoot.Json

/-! ## Blanks -/

theorem skip_cons {c : Char} (hc : isBlank c = false) (cs : List Char) :
    skip (c :: cs) = c :: cs := by
  rw [skip, List.dropWhile_cons_of_neg]
  simp [hc]

/-- The start of a line. -/
def newline (level : Nat) : List Char := '\n' :: indent level

theorem skip_space (cs : List Char) : skip (' ' :: cs) = skip cs := rfl

theorem skip_newline (level : Nat) (cs : List Char) : skip (newline level ++ cs) = skip cs := by
  rw [skip, List.dropWhile_append_of_pos, skip]
  intro c hc
  rw [newline, indent, List.mem_cons, List.mem_replicate] at hc
  rcases hc with rfl | ⟨-, rfl⟩
  · rfl
  · rfl

theorem skip_skip (cs : List Char) : skip (skip cs) = skip cs :=
  List.dropWhile_idempotent _ _

/-- A value is read after any blanks. -/
theorem value?_congr {cs cs' : List Char} (h : skip cs = skip cs') (fuel : Nat) :
    value? fuel cs = value? fuel cs' := by
  cases fuel with
  | zero => rfl
  | succ fuel => rw [value?, h, value?]

theorem items?_congr {cs cs' : List Char} (h : skip cs = skip cs') (fuel : Nat) :
    items? fuel cs = items? fuel cs' := by
  cases fuel with
  | zero => rfl
  | succ fuel => rw [items?, value?_congr h, items?]

theorem members?_congr {cs cs' : List Char} (h : skip cs = skip cs') (fuel : Nat) :
    members? fuel cs = members? fuel cs' := by
  cases fuel with
  | zero => rfl
  | succ fuel => rw [members?, h, members?]

/-! ## Numbers -/

/-- Whether a number can go on with a character. -/
def continuesNumber (c : Char) : Bool := c.isDigit || c == '.' || c == 'e' || c == 'E'

/-- Characters that do not go on with a number. -/
def Ends (cs : List Char) : Prop := ∀ c ∈ cs.head?, continuesNumber c = false

theorem ends_nil : Ends [] := nofun

theorem ends_cons {c : Char} (hc : continuesNumber c = false) (cs : List Char) :
    Ends (c :: cs) := by
  rintro _ ⟨⟩
  exact hc

theorem digits?_append {ds cs : List Char} (hne : ds ≠ []) (hds : ∀ c ∈ ds, c.isDigit = true)
    (hcs : Ends cs) : digits? (ds ++ cs) = some (ds, cs) := by
  have hstop : cs.takeWhile Char.isDigit = [] := by
    cases cs with
    | nil => rfl
    | cons c cs =>
      have hc := hcs c rfl
      simp only [continuesNumber, Bool.or_eq_false_iff] at hc
      simp [hc]
  have htake : (ds ++ cs).takeWhile Char.isDigit = ds := by
    rw [List.takeWhile_append_of_pos hds, hstop, List.append_nil]
  rw [digits?, htake, List.drop_left]
  simp [hne]

theorem fraction?_of_ends {cs : List Char} (hcs : Ends cs) : fraction? cs = some (false, cs) := by
  rw [fraction?]
  rintro rest rfl
  have hpoint := hcs '.' rfl
  revert hpoint
  decide

theorem exponent?_of_ends {cs : List Char} (hcs : Ends cs) : exponent? cs = some (false, cs) := by
  cases cs with
  | nil => rfl
  | cons c cs =>
    have hc := hcs c rfl
    simp only [continuesNumber, Bool.or_eq_false_iff, beq_eq_false_iff_ne] at hc
    simp [exponent?, hc]

/-- The digits of a number that is not zero do not start with zero. -/
theorem head_toDigits_ne_zero {n : Nat} (hn : 0 < n) :
    (Nat.toDigits 10 n).head? ≠ some '0' := by
  -- the first digit is that of the number without its last digit
  induction n using Nat.base_induction 10 (by decide) with
  | single k hk =>
    rw [Nat.toDigits_of_lt_base hk]
    revert k
    decide
  | digit m k hk hm ih =>
    have hhead := ih hm
    rw [← Nat.toDigits_append_toDigits (by decide) hm hk, List.head?_append]
    cases hds : Nat.toDigits 10 m with
    | nil => exact absurd hds Nat.toDigits_ne_nil
    | cons d ds =>
      rw [hds] at hhead
      simpa using hhead

/-- Digits that start with zero are those of zero itself. -/
theorem head_toDigits {n : Nat} (h : (Nat.toDigits 10 n).head? = some '0') :
    (Nat.toDigits 10 n).length ≤ 1 := by
  by_cases hn : 0 < n
  · exact absurd h (head_toDigits_ne_zero hn)
  · obtain rfl : n = 0 := by omega
    decide

theorem magnitude?_toDigits (n : Nat) {cs : List Char} (hcs : Ends cs) :
    magnitude? (Nat.toDigits 10 n ++ cs) = some (some n, cs) := by
  have hdigits : ∀ c ∈ Nat.toDigits 10 n, c.isDigit = true := by
    intro c hc
    exact Nat.isDigit_of_mem_toDigits (by decide) (by decide) hc
  have hzero : ¬((Nat.toDigits 10 n).head? = some '0' ∧ 1 < (Nat.toDigits 10 n).length) := by
    rintro ⟨hhead, hlength⟩
    have hshort := head_toDigits hhead
    omega
  simp [magnitude?, digits?_append Nat.toDigits_ne_nil hdigits hcs, hzero,
    fraction?_of_ends hcs, exponent?_of_ends hcs, Text.decimal?_toDigits]

/-- The text of a number starts with a digit. -/
theorem exists_toDigits_eq_cons (n : Nat) :
    ∃ d ds, Nat.toDigits 10 n = d :: ds ∧ d.isDigit = true := by
  cases hds : Nat.toDigits 10 n with
  | nil => exact absurd hds Nat.toDigits_ne_nil
  | cons d ds =>
    have hd : d ∈ Nat.toDigits 10 n := by
      rw [hds]
      exact List.mem_cons_self
    exact ⟨d, ds, rfl, Nat.isDigit_of_mem_toDigits (by decide) (by decide) hd⟩

/-- Whether a number can start with a character. -/
def startsNumber (c : Char) : Bool := c.isDigit || c == '-'

theorem ne_of_startsNumber {c d : Char} (hc : startsNumber c = true)
    (hd : startsNumber d = false) : c ≠ d := by
  rintro rfl
  rw [hc] at hd
  cases hd

theorem isBlank_of_startsNumber {c : Char} (hc : startsNumber c = true) : isBlank c = false := by
  have hspace : c ≠ ' ' := ne_of_startsNumber hc rfl
  have hline : c ≠ '\n' := ne_of_startsNumber hc rfl
  have htab : c ≠ '\t' := ne_of_startsNumber hc rfl
  have hreturn : c ≠ '\r' := ne_of_startsNumber hc rfl
  simp [isBlank, hspace, hline, htab, hreturn]

theorem toList_toString_ofNat (m : Nat) : (toString (Int.ofNat m)).toList = Nat.toDigits 10 m := by
  show m.repr.toList = _
  rw [Nat.toList_repr]

theorem toList_toString_negSucc (m : Nat) :
    (toString (Int.negSucc m)).toList = '-' :: Nat.toDigits 10 (m + 1) := by
  show ("-" ++ (m + 1).repr).toList = _
  rw [String.toList_append, Nat.toList_repr]
  rfl

theorem exists_toString_eq_cons (n : Int) :
    ∃ c cs, (toString n).toList = c :: cs ∧ startsNumber c = true := by
  cases n with
  | ofNat m =>
    obtain ⟨d, ds, hds, hd⟩ := exists_toDigits_eq_cons m
    refine ⟨d, ds, ?_, by rw [startsNumber, hd, Bool.true_or]⟩
    rw [toList_toString_ofNat, hds]
  | negSucc m => exact ⟨'-', _, toList_toString_negSucc m, rfl⟩

/-- The text of a whole number: its digits, after a minus if it is negative. -/
theorem number?_toString (n : Int) {cs : List Char} (hcs : Ends cs) :
    number? ((toString n).toList ++ cs) = some (.integer n, cs) := by
  cases n with
  | ofNat m =>
    obtain ⟨d, ds, hds, hd⟩ := exists_toDigits_eq_cons m
    rw [toList_toString_ofNat, number?, magnitude?_toDigits m hcs]
    · rfl
    · intro rest hminus
      rw [hds, List.cons_append, List.cons.injEq] at hminus
      rw [hminus.1] at hd
      revert hd
      decide
  | negSucc m =>
    rw [toList_toString_negSucc, List.cons_append, number?, magnitude?_toDigits _ hcs]
    rfl

/-! ## Texts -/

/-- A character is written with a letter, with its number, or as it is. -/
theorem escapeChar_cases (c : Char) :
    (∃ letter, escaped? letter = some c ∧ escapeChar c = ['\\', letter]) ∨
      (c < ' ' ∧ escapeChar c = controlEscape c) ∨
      (c ≠ '"' ∧ c ≠ '\\' ∧ ¬c < ' ' ∧ escapeChar c = [c]) := by
  unfold escapeChar
  split_ifs with hquote hbackslash hb hf hn hr ht hcontrol
  · exact .inl ⟨'"', by rw [hquote, escaped?], rfl⟩
  · exact .inl ⟨'\\', by rw [hbackslash, escaped?], rfl⟩
  · exact .inl ⟨'b', by rw [hb, escaped?], rfl⟩
  · exact .inl ⟨'f', by rw [hf, escaped?], rfl⟩
  · exact .inl ⟨'n', by rw [hn, escaped?], rfl⟩
  · exact .inl ⟨'r', by rw [hr, escaped?], rfl⟩
  · exact .inl ⟨'t', by rw [ht, escaped?], rfl⟩
  · exact .inr (.inl ⟨hcontrol, rfl⟩)
  · exact .inr (.inr ⟨hquote, hbackslash, hcontrol, rfl⟩)

theorem hex4?_controlEscape {c : Char} (hc : c < ' ') (cs : List Char) :
    hex4? ('0' :: '0' :: Bytes.hexDigit (c.toNat / 16) :: Bytes.hexDigit (c.toNat % 16) :: cs) =
      some (c.toNat, cs) := by
  have hsmall : c.toNat < 32 := hc
  have hhigh := Bytes.hexValue?_hexDigit (c.toNat / 16) (by omega)
  have hlow := Bytes.hexValue?_hexDigit (c.toNat % 16) (by omega)
  have hzero : Bytes.hexValue? '0' = some 0 := rfl
  have hjoin : c.toNat / 16 * 16 + c.toNat % 16 = c.toNat := by omega
  simp [hex4?, Text.hexadecimal?, Text.numeral?, hzero, hhigh, hlow, hjoin]

/-- What is written for a character is read as one piece, which stands for the character. -/
theorem exists_piece (c : Char) : ∃ p : Piece,
    (∀ fuel cs, pieces? (fuel + 1) (escapeChar c ++ cs) =
      (pieces? fuel cs).map fun (ps, rest) => (p :: ps, rest)) ∧
    ∀ ps, join? (p :: ps) = (join? ps).map (c :: ·) := by
  rcases escapeChar_cases c with ⟨letter, hletter, hc⟩ | ⟨hcontrol, hc⟩ | ⟨hq, hb, hcontrol, hc⟩
  · refine ⟨.char c, fun fuel cs => ?_, fun ps => rfl⟩
    have hu : letter ≠ 'u' := by
      rintro rfl
      cases hletter
    rw [hc, List.cons_append, List.singleton_append, pieces?, hletter]
    · cases pieces? fuel cs <;> rfl
    · exact hu
  · have hsmall : c.toNat < 32 := hcontrol
    refine ⟨.unit c.toNat, fun fuel cs => ?_, fun ps => ?_⟩
    · rw [hc, controlEscape]
      simp only [List.cons_append, List.nil_append, pieces?, hex4?_controlEscape hcontrol,
        Option.bind_eq_bind, Option.bind_some]
      cases pieces? fuel cs <;> rfl
    · -- a control character is not a surrogate, so that its unit stands alone
      have hunit : c.toNat < 0xD800 ∨ 0xDFFF < c.toNat := by omega
      rw [join?.eq_def]
      simp [hunit]
  · refine ⟨.char c, fun fuel cs => ?_, fun ps => rfl⟩
    rw [hc, List.singleton_append, pieces?, if_neg hcontrol]
    · exact hq
    · exact fun _ h => absurd h hb
    · exact fun _ _ h => absurd h hb

theorem length_escapeChar_pos (c : Char) : 0 < (escapeChar c).length := by
  rcases escapeChar_cases c with ⟨letter, -, hc⟩ | ⟨-, hc⟩ | ⟨-, -, -, hc⟩
  · simp [hc]
  · simp [hc, controlEscape]
  · simp [hc]

/-- A text is read up to its closing quotation mark, as pieces that stand for it. -/
theorem exists_pieces (text : List Char) : ∃ ps, join? ps = some text ∧
    ∀ fuel cs, (text.flatMap escapeChar).length < fuel →
      pieces? fuel (text.flatMap escapeChar ++ '"' :: cs) = some (ps, cs) := by
  induction text with
  | nil =>
    refine ⟨[], rfl, fun fuel cs hfuel => ?_⟩
    obtain ⟨fuel, rfl⟩ := Nat.exists_eq_succ_of_ne_zero (by omega : fuel ≠ 0)
    rfl
  | cons c text ih =>
    obtain ⟨p, hread, hjoin⟩ := exists_piece c
    obtain ⟨ps, hps, hrest⟩ := ih
    refine ⟨p :: ps, by rw [hjoin, hps, Option.map_some], fun fuel cs hfuel => ?_⟩
    have hc := length_escapeChar_pos c
    rw [List.flatMap_cons, List.length_append] at hfuel
    obtain ⟨fuel, rfl⟩ := Nat.exists_eq_succ_of_ne_zero (by omega : fuel ≠ 0)
    rw [List.flatMap_cons, List.append_assoc, hread, hrest fuel cs (by omega), Option.map_some]

theorem string?_escape (s : String) (cs : List Char) :
    string? (s.toList.flatMap escapeChar ++ '"' :: cs) = some (some s, cs) := by
  obtain ⟨ps, hjoin, hread⟩ := exists_pieces s.toList
  rw [string?, hread _ cs]
  · simp [hjoin]
  · rw [List.length_append]
    omega

/-! ## Blocks -/

/-- What follows the first part of a block: the other parts and the closing bracket. -/
def following (level : Nat) (finish : Char) : List (List Char) → List Char
  | [] => newline level ++ [finish]
  | part :: parts => ',' :: newline (level + 1) ++ part ++ following level finish parts

theorem intercalate_lines (level : Nat) (finish : Char) (part : List Char)
    (parts : List (List Char)) :
    [','].intercalate ((part :: parts).map (newline (level + 1) ++ ·)) ++
        (newline level ++ [finish]) =
      newline (level + 1) ++ part ++ following level finish parts := by
  induction parts generalizing part with
  | nil => simp [following]
  | cons next parts ih =>
    have hnext := ih next
    rw [List.map_cons] at hnext
    simp only [List.map_cons, List.intercalate_cons_cons, List.append_assoc, hnext, following,
      List.cons_append, List.nil_append]

theorem block_cons (level : Nat) (start finish : Char) (part : List Char)
    (parts : List (List Char)) :
    block level start finish (part :: parts) =
      start :: (newline (level + 1) ++ part ++ following level finish parts) := by
  rw [block, ← intercalate_lines]
  · simp [newline]
  · simp

section Shape

variable (level : Nat) (start finish : Char) (part : List Char) (parts : List (List Char))
  (cs : List Char)

theorem block_cons_append : block level start finish (part :: parts) ++ cs =
    start :: (newline (level + 1) ++ (part ++ (following level finish parts ++ cs))) := by
  rw [block_cons]
  simp

theorem following_nil_append :
    following level finish [] ++ cs = newline level ++ finish :: cs := by
  simp [following]

theorem following_cons_append : following level finish (part :: parts) ++ cs =
    ',' :: (newline (level + 1) ++ (part ++ (following level finish parts ++ cs))) := by
  simp [following]

/-- A block is longer than what follows its first line break. -/
theorem length_lt_block :
    part.length + (following level finish parts).length <
      (block level start finish (part :: parts)).length := by
  rw [block_cons]
  simp only [List.length_cons, List.length_append]
  omega

theorem length_lt_following :
    part.length + (following level finish parts).length <
      (following level finish (part :: parts)).length := by
  rw [following]
  simp only [List.cons_append, List.length_cons, List.length_append]
  omega

theorem length_following_pos : 0 < (following level finish parts).length := by
  cases parts with
  | nil => simp [following]
  | cons part parts => simp [following]

theorem ends_following : Ends (following level finish parts ++ cs) := by
  cases parts with
  | nil => exact ends_cons (by decide) _
  | cons part parts => exact ends_cons (by decide) _

end Shape

/-! ## Values -/

/-- The text of a value starts with a character that is neither a blank nor a closing bracket. -/
theorem exists_write_eq_cons (level : Nat) (v : Json) :
    ∃ c cs, write level v = c :: cs ∧ isBlank c = false ∧ c ≠ ']' := by
  cases v with
  | null => exact ⟨'n', _, rfl, rfl, by decide⟩
  | bool b =>
    cases b with
    | true => exact ⟨'t', _, rfl, rfl, by decide⟩
    | false => exact ⟨'f', _, rfl, rfl, by decide⟩
  | integer n =>
    obtain ⟨c, cs, hn, hc⟩ := exists_toString_eq_cons n
    exact ⟨c, cs, hn, isBlank_of_startsNumber hc, ne_of_startsNumber hc rfl⟩
  | inexact => exact ⟨'0', _, rfl, rfl, by decide⟩
  | string s => exact ⟨'"', _, rfl, rfl, by decide⟩
  | array items =>
    rw [write]
    cases writeItems level items with
    | nil => exact ⟨'[', _, rfl, rfl, by decide⟩
    | cons part parts => exact ⟨'[', _, block_cons _ _ _ _ _, rfl, by decide⟩
  | object members =>
    rw [write]
    cases writeMembers level members with
    | nil => exact ⟨'\x7b', _, rfl, rfl, by decide⟩
    | cons part parts => exact ⟨'\x7b', _, block_cons _ _ _ _ _, rfl, by decide⟩

/-- A value that starts like a number is one. -/
theorem value?_eq_number? {c : Char} (hc : startsNumber c = true) (fuel : Nat)
    (cs : List Char) : value? (fuel + 1) (c :: cs) = number? (c :: cs) := by
  rw [value?, skip_cons (isBlank_of_startsNumber hc)]
  split
  case h_1 heq => cases heq
  case h_8 => rfl
  -- every other kind of value starts with a character of its own
  all_goals
    rename_i heq
    exact absurd (List.cons.inj heq).1 (ne_of_startsNumber hc rfl)

/-- An array is the items after its bracket. -/
theorem value?_array {fuel : Nat} {c : Char} {tail cs rest : List Char} {items : List Json}
    (hskip : skip cs = c :: tail) (hc : c ≠ ']') (hitems : items? fuel cs = some (items, rest)) :
    value? (fuel + 1) ('[' :: cs) = some (.array items, rest) := by
  have hsame : items? fuel (c :: tail) = items? fuel cs := by
    rw [← hskip]
    exact items?_congr (skip_skip cs) fuel
  rw [value?, skip_cons rfl]
  simp only [hskip]
  split
  case h_1 heq => exact absurd (List.cons.inj heq).1 hc
  case h_2 => rw [hsame, hitems, Option.map_some]

theorem value?_object {fuel : Nat} {c : Char} {tail cs rest : List Char}
    {members : List (Option String × Json)} (hskip : skip cs = c :: tail) (hc : c ≠ '\x7d')
    (hmembers : members? fuel cs = some (members, rest)) :
    value? (fuel + 1) ('\x7b' :: cs) = some (.object members, rest) := by
  have hsame : members? fuel (c :: tail) = members? fuel cs := by
    rw [← hskip]
    exact members?_congr (skip_skip cs) fuel
  rw [value?, skip_cons rfl]
  simp only [hskip]
  split
  case h_1 heq => exact absurd (List.cons.inj heq).1 hc
  case h_2 => rw [hsame, hmembers, Option.map_some]

section Items

variable {fuel : Nat} {cs rest after : List Char} {v : Json} {vs : List Json}

theorem items?_last (hv : value? fuel cs = some (v, rest)) (hrest : skip rest = ']' :: after) :
    items? (fuel + 1) cs = some ([v], after) := by
  simp [items?, hv, hrest]

theorem items?_more {next : List Char} (hv : value? fuel cs = some (v, rest))
    (hrest : skip rest = ',' :: next) (hvs : items? fuel next = some (vs, after)) :
    items? (fuel + 1) cs = some (v :: vs, after) := by
  simp [items?, hv, hrest, hvs]

end Items

section Members

variable {fuel : Nat} {cs rest after : List Char} {name : String} {v : Json}
  {ms : List (Option String × Json)}

/-- A name, a colon and a value. -/
theorem members?_last (hv : value? fuel cs = some (v, rest))
    (hrest : skip rest = '\x7d' :: after) :
    members? (fuel + 1) (quote name ++ ([':', ' '] ++ cs)) = some ([(some name, v)], after) := by
  have hcs : value? fuel (' ' :: cs) = value? fuel cs := value?_congr (skip_space cs) fuel
  simp [members?, quote, skip_cons, isBlank, string?_escape, hcs, hv, hrest]

theorem members?_more {next : List Char} (hv : value? fuel cs = some (v, rest))
    (hrest : skip rest = ',' :: next) (hms : members? fuel next = some (ms, after)) :
    members? (fuel + 1) (quote name ++ ([':', ' '] ++ cs)) = some ((some name, v) :: ms, after) := by
  have hcs : value? fuel (' ' :: cs) = value? fuel cs := value?_congr (skip_space cs) fuel
  simp [members?, quote, skip_cons, isBlank, string?_escape, hcs, hv, hrest, hms]

end Members

/-- A value is read from its text, whatever follows that does not go on with a number. -/
def ReadsBack (v : Json) : Prop :=
  ∀ level fuel cs, Ends cs → (write level v).length ≤ fuel →
    value? (fuel + 1) (write level v ++ cs) = some (v, cs)

theorem readsBack_null : ReadsBack .null := fun _ _ _ _ _ => rfl

theorem readsBack_bool (b : Bool) : ReadsBack (.bool b) := by
  intro level fuel cs _ _
  cases b with
  | false => rfl
  | true => rfl

theorem readsBack_integer (n : Int) : ReadsBack (.integer n) := by
  intro level fuel cs hcs _
  obtain ⟨c, tail, hn, hc⟩ := exists_toString_eq_cons n
  rw [write, ← number?_toString n hcs, hn, List.cons_append, value?_eq_number? hc]

theorem readsBack_text (s : String) : ReadsBack (.text s) := by
  intro level fuel cs _ _
  show value? (fuel + 1) ('"' :: (s.toList.flatMap escapeChar ++ ['"'] ++ cs)) = _
  rw [value?, skip_cons rfl]
  simp only [List.append_assoc, List.singleton_append, string?_escape, Option.map_some]
  rfl

/-- A value is read up to what follows it in a block. -/
theorem ReadsBack.value?_following {v : Json} (hv : ReadsBack v) {level fuel : Nat} {finish : Char}
    {parts : List (List Char)} (cs : List Char)
    (hfuel : (write (level + 1) v).length + (following level finish parts).length ≤ fuel) :
    value? fuel (write (level + 1) v ++ (following level finish parts ++ cs)) =
      some (v, following level finish parts ++ cs) := by
  have hpos := length_following_pos level finish parts
  obtain ⟨fuel, rfl⟩ := Nat.exists_eq_succ_of_ne_zero (by omega : fuel ≠ 0)
  exact hv (level + 1) fuel _ (ends_following level finish parts cs) (by omega)

/-- The items of an array are read up to its closing bracket. -/
theorem items?_write {v : Json} {vs : List Json} (hread : ∀ w ∈ v :: vs, ReadsBack w)
    {level fuel : Nat} (cs : List Char)
    (hfuel : (write (level + 1) v).length + (following level ']' (writeItems level vs)).length ≤
      fuel) :
    items? (fuel + 1) (write (level + 1) v ++ (following level ']' (writeItems level vs) ++ cs)) =
      some (v :: vs, cs) := by
  induction vs generalizing v fuel with
  | nil =>
    have hvalue := (hread v List.mem_cons_self).value?_following cs hfuel
    refine items?_last hvalue ?_
    rw [writeItems, following_nil_append, skip_newline]
    exact skip_cons rfl _
  | cons w ws ih =>
    obtain ⟨hv, hws⟩ := List.forall_mem_cons.1 hread
    have hvalue := hv.value?_following cs hfuel
    have hshorter := length_lt_following level ']' (write (level + 1) w) (writeItems level ws)
    rw [writeItems] at hfuel
    rw [writeItems, following_cons_append] at hvalue ⊢
    -- the items that follow are shorter than what is left of the block, which is fuel enough
    obtain ⟨fuel, rfl⟩ := Nat.exists_eq_succ_of_ne_zero (by omega : fuel ≠ 0)
    refine items?_more hvalue (skip_cons rfl _) ?_
    rw [items?_congr (skip_newline _ _)]
    exact ih hws (by omega)

/-- The text of a member. -/
def writeMember (level : Nat) (m : String × Json) : List Char :=
  quote m.1 ++ ([':', ' '] ++ write (level + 1) m.2)

/-- The text of a member, with what follows it. -/
theorem writeMember_append (level : Nat) (m : String × Json) (cs : List Char) :
    writeMember level m ++ cs = quote m.1 ++ ([':', ' '] ++ (write (level + 1) m.2 ++ cs)) := by
  simp [writeMember]

theorem length_writeMember (level : Nat) (m : String × Json) :
    (write (level + 1) m.2).length ≤ (writeMember level m).length := by
  simp only [writeMember, List.length_append]
  omega

theorem writeMembers_map (level : Nat) (ms : List (String × Json)) :
    writeMembers level (ms.map fun (name, v) => (some name, v)) = ms.map (writeMember level) := by
  induction ms with
  | nil => rfl
  | cons m ms ih =>
    rw [List.map_cons, List.map_cons, writeMembers, ih, writeMember, List.append_assoc]
    rfl

/-- The members of an object are read up to its closing bracket. -/
theorem members?_write {m : String × Json} {ms : List (String × Json)}
    (hread : ∀ m' ∈ m :: ms, ReadsBack m'.2) {level fuel : Nat} (cs : List Char)
    (hfuel : (writeMember level m).length +
      (following level '\x7d' (ms.map (writeMember level))).length ≤ fuel) :
    members? (fuel + 1) (writeMember level m ++
        (following level '\x7d' (ms.map (writeMember level)) ++ cs)) =
      some ((m :: ms).map fun (name, v) => (some name, v), cs) := by
  induction ms generalizing m fuel with
  | nil =>
    have hlength := (Nat.add_le_add_right (length_writeMember level m) _).trans hfuel
    have hvalue := (hread m List.mem_cons_self).value?_following cs hlength
    rw [writeMember_append]
    refine members?_last hvalue ?_
    rw [List.map_nil, following_nil_append, skip_newline]
    exact skip_cons rfl _
  | cons next ms ih =>
    obtain ⟨hm, hms⟩ := List.forall_mem_cons.1 hread
    have hlength := (Nat.add_le_add_right (length_writeMember level m) _).trans hfuel
    have hvalue := hm.value?_following cs hlength
    have hshorter := length_lt_following level '\x7d' (writeMember level next)
      (ms.map (writeMember level))
    rw [List.map_cons] at hfuel
    rw [List.map_cons, following_cons_append] at hvalue ⊢
    obtain ⟨fuel, rfl⟩ := Nat.exists_eq_succ_of_ne_zero (by omega : fuel ≠ 0)
    rw [writeMember_append]
    refine members?_more hvalue (skip_cons rfl _) ?_
    rw [members?_congr (skip_newline _ _)]
    exact ih hms (by omega)

theorem readsBack_array {items : List Json} (hread : ∀ v ∈ items, ReadsBack v) :
    ReadsBack (.array items) := by
  intro level fuel cs _ hfuel
  cases items with
  | nil => rfl
  | cons v vs =>
    obtain ⟨c, tail, hwrite, hblank, hc⟩ := exists_write_eq_cons (level + 1) v
    have hshorter := length_lt_block level '[' ']' (write (level + 1) v) (writeItems level vs)
    rw [write, writeItems] at hfuel
    rw [write, writeItems, block_cons_append]
    obtain ⟨fuel, rfl⟩ := Nat.exists_eq_succ_of_ne_zero (by omega : fuel ≠ 0)
    have hlength := Nat.le_of_lt_succ (hshorter.trans_le hfuel)
    have hitems := items?_write hread cs hlength
    rw [← items?_congr (skip_newline (level + 1) _)] at hitems
    have hskip : skip (newline (level + 1) ++
        (write (level + 1) v ++ (following level ']' (writeItems level vs) ++ cs))) =
          c :: (tail ++ (following level ']' (writeItems level vs) ++ cs)) := by
      rw [skip_newline, hwrite, List.cons_append, skip_cons hblank]
    exact value?_array hskip hc hitems

theorem readsBack_ofMembers {members : List (String × Json)}
    (hread : ∀ m ∈ members, ReadsBack m.2) : ReadsBack (.ofMembers members) := by
  intro level fuel cs _ hfuel
  cases members with
  | nil => rfl
  | cons m ms =>
    have hshorter := length_lt_block level '\x7b' '\x7d' (writeMember level m)
      (ms.map (writeMember level))
    rw [ofMembers, write, writeMembers_map, List.map_cons] at hfuel
    rw [ofMembers, write, writeMembers_map, List.map_cons, block_cons_append]
    obtain ⟨fuel, rfl⟩ := Nat.exists_eq_succ_of_ne_zero (by omega : fuel ≠ 0)
    have hlength := Nat.le_of_lt_succ (hshorter.trans_le hfuel)
    have hmembers := members?_write hread cs hlength
    rw [← members?_congr (skip_newline (level + 1) _)] at hmembers
    have hskip : ∃ tail, skip (newline (level + 1) ++ (writeMember level m ++
        (following level '\x7d' (ms.map (writeMember level)) ++ cs))) = '"' :: tail := by
      rw [skip_newline]
      exact ⟨_, skip_cons rfl _⟩
    obtain ⟨tail, hskip⟩ := hskip
    exact value?_object hskip (by decide) hmembers

/-! ## The main result -/

/-- A value whose numbers are whole, and whose texts have no lone surrogates. -/
inductive Exact : Json → Prop
  | null : Exact .null
  | bool (b : Bool) : Exact (.bool b)
  | integer (n : Int) : Exact (.integer n)
  | text (s : String) : Exact (.text s)
  | array {items : List Json} (h : ∀ v ∈ items, Exact v) : Exact (.array items)
  | ofMembers {members : List (String × Json)} (h : ∀ m ∈ members, Exact m.2) :
    Exact (.ofMembers members)

theorem Exact.readsBack {v : Json} (hv : Exact v) : ReadsBack v := by
  induction hv with
  | null => exact readsBack_null
  | bool b => exact readsBack_bool b
  | integer n => exact readsBack_integer n
  | text s => exact readsBack_text s
  | array _ ih => exact readsBack_array ih
  | ofMembers _ ih => exact readsBack_ofMembers ih

/-- **A value is read back from its text.** -/
theorem parse?_pretty {v : Json} (hv : Exact v) : parse? v.pretty = some v := by
  have hfuel : (write 0 v).length ≤ 2 * v.pretty.length + 1 := by
    rw [pretty, String.length_ofList]
    omega
  have hvalue := hv.readsBack 0 _ [] ends_nil hfuel
  have htext : v.pretty.toList = write 0 v := String.toList_ofList
  rw [List.append_nil] at hvalue
  rw [parse?, htext, hvalue]
  rfl

end SecureBoot.Json
