import Mathlib.Algebra.Group.Nat.Defs
import TgPlatform.Lib.Json
import Mathlib.Data.List.Basic

/-! # JSON texts

What `json.dumps` writes of flat dicts and what `json.loads` reads of any text.
A reader takes the start of a text and returns what is left of it, too.
-/

/-- The default of `sys.set_int_max_str_digits`. -/
def maxStrDigits : ℕ := 4300

namespace JsonText

/-! ## Reading -/

def isBlank (c : Char) : Bool := c = ' ' || c = '\t' || c = '\n' || c = '\r'

def skip (s : List Char) : List Char := s.dropWhile isBlank

/-- What a backslash makes of a character. -/
def unescaped (c : Char) : Option Char :=
  ("\"\\/bfnrt".toList.zip ['"', '\\', '/', '\x08', '\x0c', '\n', '\r', '\t']).lookup c

def hexValue (c : Char) : Option ℕ :=
  if c.isDigit then some (c.toNat - 48)
  else if 'a' ≤ c ∧ c ≤ 'f' then some (c.toNat - 87)
  else if 'A' ≤ c ∧ c ≤ 'F' then some (c.toNat - 55)
  else none

/-- Where `scanstring` is: at a character, behind a backslash, or in the digits of `\uXXXX`. -/
inductive StringMode
  | plain
  | escape
  | hex (missing n : ℕ)

/-- `scanstring` behind the opening quote, up to the closing one. -/
def scanUnits : StringMode → List Char → Option (List ℕ × List Char)
  | _, [] => none
  | .plain, c :: s =>
    if c = '"' then some ([], s)
    else if c = '\\' then scanUnits .escape s
    else if c.toNat < 0x20 then none
    else (scanUnits .plain s).map fun x => (c.toNat :: x.1, x.2)
  | .escape, c :: s =>
    if c = 'u' then scanUnits (.hex 4 0) s
    else do
      let c ← unescaped c
      let (units, rest) ← scanUnits .plain s
      return (c.toNat :: units, rest)
  | .hex missing n, c :: s => do
    let k ← hexValue c
    if missing = 1 then
      let (units, rest) ← scanUnits .plain s
      return ((16 * n + k) :: units, rest)
    else scanUnits (.hex (missing - 1) (16 * n + k)) s

def isHigh (n : ℕ) : Bool := 0xd800 ≤ n && n < 0xdc00

def isLow (n : ℕ) : Bool := 0xdc00 ≤ n && n < 0xe000

def charOf (n : ℕ) : Option Char := if n.isValidChar then some (Char.ofNat n) else none

/-- The characters of code units. A surrogate that is not one of a pair is no character here. -/
def joinUnits : List ℕ → Option (List Char)
  | [] => some []
  | [n] => (charOf n).map fun c => [c]
  | n :: m :: units =>
    if isHigh n && isLow m then
      (joinUnits units).map fun s => Char.ofNat (0x10000 + (n - 0xd800) * 0x400 + (m - 0xdc00)) :: s
    else do
      let c ← charOf n
      return c :: (← joinUnits (m :: units))

def scanString (s : List Char) : Option (String × List Char) := do
  let (units, rest) ← scanUnits .plain s
  return (String.ofList (← joinUnits units), rest)

/-- `(\.\d+)?`. -/
def fraction : List Char → List Char
  | '.' :: s => if s.takeWhile Char.isDigit = [] then [] else '.' :: s.takeWhile Char.isDigit
  | _ => []

/-- `([eE][-+]?\d+)?`. -/
def exponent : List Char → List Char
  | [] => []
  | e :: s =>
    if e = 'e' ∨ e = 'E' then
      let sign := s.take (if s.head? = some '-' ∨ s.head? = some '+' then 1 else 0)
      let digits := (s.drop sign.length).takeWhile Char.isDigit
      if digits = [] then [] else e :: (sign ++ digits)
    else []

section Loads

variable (parseFloat : String → Option PyFloat)

/-- `0|[1-9]\d*`, a fraction and an exponent; a number without those two is an `int`. -/
def scanDigits (sign s : List Char) : Option (Json × List Char) :=
  let digits := if s.head? = some '0' then ['0'] else s.takeWhile Char.isDigit
  let s := s.drop digits.length
  let frac := fraction s
  let exp := exponent (s.drop frac.length)
  if digits = [] then none
  else if frac ++ exp = [] then
    if maxStrDigits < digits.length then none
    else
      let n : ℤ := Nat.ofDigitChars 10 digits 0
      some (.int (if sign = [] then n else -n), s)
  else
    (parseFloat (String.ofList (sign ++ digits ++ frac ++ exp))).map fun x =>
      (.float x, s.drop (frac ++ exp).length)

/-- `_match_number`. -/
def scanNumber (s : List Char) : Option (Json × List Char) :=
  if s.head? = some '-' then scanDigits parseFloat ['-'] s.tail else scanDigits parseFloat [] s

def constants : List (List Char × Json) :=
  [("null".toList, .null), ("true".toList, .bool true), ("false".toList, .bool false),
    ("NaN".toList, .float .nan), ("Infinity".toList, .float (.infinity false)),
    ("-Infinity".toList, .float (.infinity true))]

/-- `d[key] = v`. -/
def setEntry (entries : List (String × Json)) (key : String) (v : Json) : List (String × Json) :=
  if (entries.lookup key).isSome then
    entries.map fun entry => if entry.1 = key then (key, v) else entry
  else entries ++ [(key, v)]

variable (value : List Char → Option (Json × List Char))

/-- The members of an object up to its end, given the reader of values. -/
def scanMembers : ℕ → List (String × Json) → List Char → Option (Json × List Char)
  | 0, _, _ => none
  | n + 1, entries, s =>
    if s.head? = some '"' then do
      let (key, s) ← scanString s.tail
      if (skip s).head? = some ':' then do
        let (v, s) ← value (skip (skip s).tail)
        let entries := setEntry entries key v
        match skip s with
        | '}' :: s => some (.dict entries, s)
        | ',' :: s => scanMembers n entries (skip s)
        | _ => none
      else none
    else none

def scanItems : ℕ → List Json → List Char → Option (Json × List Char)
  | 0, _, _ => none
  | n + 1, items, s => do
    let (v, s) ← value s
    match skip s with
    | ']' :: s => some (.list (items ++ [v]), s)
    | ',' :: s => scanItems n (items ++ [v]) (skip s)
    | _ => none

/-- `scan_once`, of values nested to a depth. -/
def scanOnce : ℕ → List Char → Option (Json × List Char)
  | 0, _ => none
  | _ + 1, [] => none
  | n + 1, c :: s =>
    if c = '"' then (scanString s).map fun x => (.str x.1, x.2)
    else if c = '{' then
      if (skip s).head? = some '}' then some (.dict [], (skip s).tail)
      else scanMembers (scanOnce n) s.length [] (skip s)
    else if c = '[' then
      if (skip s).head? = some ']' then some (.list [], (skip s).tail)
      else scanItems (scanOnce n) s.length [] (skip s)
    else
      match constants.find? fun w => w.1.isPrefixOf (c :: s) with
      | some w => some (w.2, (c :: s).drop w.1.length)
      | none => scanNumber parseFloat (c :: s)

/-- `json.loads` of a string. -/
def loads (s : List Char) : Option Json := do
  let (v, rest) ← scanOnce parseFloat (s.length + 1) (skip s)
  if skip rest = [] then return v else none

end Loads

/-! ## Writing -/

def hexDigit (n : ℕ) : Char := Nat.digitChar n

/-- `\uXXXX`. -/
def unitEscape (n : ℕ) : List Char :=
  ['\\', 'u', hexDigit (n / 4096 % 16), hexDigit (n / 256 % 16), hexDigit (n / 16 % 16),
    hexDigit (n % 16)]

def escape (c : Char) : List Char :=
  if c = '"' then ['\\', '"'] else if c = '\\' then ['\\', '\\']
  else if c = '\n' then ['\\', 'n'] else if c = '\r' then ['\\', 'r'] else if c = '\t' then ['\\', 't']
  else if c = '\x0c' then ['\\', 'f'] else if c = '\x08' then ['\\', 'b']
  else if 0x20 ≤ c.toNat ∧ c.toNat < 0x7f then [c]
  else if c.toNat < 0x10000 then unitEscape c.toNat
  else unitEscape (0xd800 + (c.toNat - 0x10000) / 0x400) ++
    unitEscape (0xdc00 + (c.toNat - 0x10000) % 0x400)

def quote (s : List Char) : List Char := '"' :: (s.flatMap escape ++ ['"'])

/-- `str` of an `int`, if there are not too many digits. -/
def dumpsInt (n : ℤ) : Option (List Char) :=
  if 10 ^ maxStrDigits ≤ n.natAbs then none
  else some ((if n < 0 then ['-'] else []) ++ Nat.toDigits 10 n.natAbs)

def dumpsDict (members : List (List Char × List Char)) : List Char :=
  '{' :: (", ".toList.intercalate (members.map fun m => quote m.1 ++ ": ".toList ++ m.2) ++ ['}'])

/-! ## What is written is read back -/

section RoundTrip

variable {parseFloat : String → Option PyFloat} {s text rest : List Char} {c : Char} {n : ℤ}

/-- A character that is written as it is. -/
def isPlain (c : Char) : Bool := 0x20 ≤ c.toNat && c.toNat < 0x7f && c ≠ '"' && c ≠ '\\'

theorem escape_plain (hc : isPlain c = true) : escape c = [c] := by
  simp only [isPlain, Bool.and_eq_true, decide_eq_true_eq, ne_eq] at hc
  obtain ⟨⟨⟨hlow, hhigh⟩, hquote⟩, hslash⟩ := hc
  have hne : ∀ a : Char, a.toNat < 0x20 → c ≠ a := by
    rintro a ha rfl
    exact Nat.not_lt.mpr hlow ha
  rw [escape, if_neg hquote, if_neg hslash, if_neg (hne _ (by decide)), if_neg (hne _ (by decide)),
    if_neg (hne _ (by decide)), if_neg (hne _ (by decide)), if_neg (hne _ (by decide)),
    if_pos ⟨hlow, hhigh⟩]

theorem quote_plain (hs : ∀ c ∈ s, isPlain c = true) : quote s = '"' :: (s ++ ['"']) := by
  have hescape : s.flatMap escape = s := by
    induction s with
    | nil => rfl
    | cons c s ih =>
      obtain ⟨hc, hs⟩ := List.forall_mem_cons.mp hs
      rw [List.flatMap_cons, escape_plain hc, ih hs, List.singleton_append]
  rw [quote, hescape]

theorem scanUnits_plain (hs : ∀ c ∈ s, isPlain c = true) :
    scanUnits .plain (s ++ '"' :: rest) = some (s.map Char.toNat, rest) := by
  induction s with
  | nil => rfl
  | cons c s ih =>
    obtain ⟨hc, hs⟩ := List.forall_mem_cons.mp hs
    simp only [isPlain, Bool.and_eq_true, decide_eq_true_eq, ne_eq] at hc
    obtain ⟨⟨⟨hlow, -⟩, hquote⟩, hslash⟩ := hc
    rw [List.cons_append, scanUnits, if_neg hquote, if_neg hslash, if_neg (Nat.not_lt.mpr hlow), ih hs]
    rfl

theorem charOf_toNat (c : Char) : charOf c.toNat = some c := by
  have hvalid : c.toNat.isValidChar := c.valid
  rw [charOf, if_pos hvalid, Char.ofNat_toNat]

theorem joinUnits_ascii : ∀ {s : List Char}, (∀ c ∈ s, c.toNat < 0x80) →
    joinUnits (s.map Char.toNat) = some s
  | [], _ => rfl
  | [c], _ => by rw [List.map_singleton, joinUnits, charOf_toNat]; rfl
  | c :: a :: s, hs => by
    obtain ⟨hc, hs⟩ := List.forall_mem_cons.mp hs
    have hhigh : isHigh c.toNat = false := by
      rw [isHigh, decide_eq_false (by omega), Bool.false_and]
    have ih := joinUnits_ascii hs
    rw [List.map_cons] at ih
    rw [List.map_cons, List.map_cons, joinUnits, hhigh, Bool.false_and, if_neg Bool.false_ne_true,
      charOf_toNat, ih]
    rfl

theorem scanString_plain (hs : ∀ c ∈ s, isPlain c = true) :
    scanString (s ++ '"' :: rest) = some (String.ofList s, rest) := by
  have hascii : ∀ c ∈ s, c.toNat < 0x80 := by
    intro c hc
    have h := hs c hc
    simp only [isPlain, Bool.and_eq_true, decide_eq_true_eq] at h
    omega
  rw [scanString, scanUnits_plain hs]
  simp only [Option.bind_eq_bind, Option.bind_some]
  rw [joinUnits_ascii hascii]
  rfl

/-- A text that the reader takes for a value in a dict, and no more than it. -/
structure Renders (parseFloat : String → Option PyFloat) (text : List Char) (v : Json) : Prop where
  begins : ∃ c s, text = c :: s ∧ isBlank c = false
  scans : ∀ k c rest, c = ',' ∨ c = '}' →
    scanOnce parseFloat (k + 1) (text ++ c :: rest) = some (v, c :: rest)

theorem renders_quote (hs : ∀ c ∈ s, isPlain c = true) :
    Renders parseFloat (quote s) (.str (String.ofList s)) := by
  refine ⟨⟨'"', _, rfl, rfl⟩, fun k c rest _ => ?_⟩
  rw [quote_plain hs, List.cons_append, List.append_assoc, scanOnce, if_pos rfl, List.singleton_append,
    scanString_plain hs]
  rfl

theorem ne_of_isDigit {a : Char} (hc : c.isDigit = true) (ha : a.isDigit = false) : c ≠ a := by
  rintro rfl
  rw [ha] at hc
  cases hc

theorem takeWhile_digits (hs : ∀ c ∈ s, c.isDigit = true) (hc : c.isDigit = false) :
    (s ++ c :: rest).takeWhile Char.isDigit = s := by
  rw [List.takeWhile_append_of_pos hs, List.takeWhile_cons_of_neg (by simp [hc]), List.append_nil]

theorem eq_zero_of_toDigits : ∀ n : ℕ, (Nat.toDigits 10 n).head? = some '0' → n = 0 := by
  intro n
  induction n using Nat.strong_induction_on with
  | _ n ih =>
    intro h
    by_cases hn : n < 10
    · rw [Nat.toDigits_of_lt_base hn] at h
      exact Nat.digitChar_eq_zero.mp (Option.some.inj h)
    · have hle : 10 ≤ n := Nat.not_lt.mp hn
      rw [Nat.toDigits_of_base_le (by decide) hle, List.head?_append_of_ne_nil _ Nat.toDigits_ne_nil] at h
      have hzero := ih (n / 10) (by omega) h
      omega

theorem isDigit_of_mem_toDigits {n : ℕ} : ∀ c ∈ Nat.toDigits 10 n, c.isDigit = true :=
  fun _ hc => Nat.isDigit_of_mem_toDigits (by decide) (by decide) hc

theorem scan_toDigits {n : ℕ} (hc : c.isDigit = false) :
    (if (Nat.toDigits 10 n ++ c :: rest).head? = some '0' then ['0']
      else (Nat.toDigits 10 n ++ c :: rest).takeWhile Char.isDigit) = Nat.toDigits 10 n := by
  rw [List.head?_append_of_ne_nil _ Nat.toDigits_ne_nil]
  split
  · rename_i hzero
    rw [eq_zero_of_toDigits n hzero, Nat.toDigits_zero]
  · exact takeWhile_digits isDigit_of_mem_toDigits hc

theorem scanDigits_toDigits {n : ℕ} {sign : List Char} (hn : n < 10 ^ maxStrDigits)
    (hc : c = ',' ∨ c = '}') : scanDigits parseFloat sign (Nat.toDigits 10 n ++ c :: rest) =
      some (.int (if sign = [] then n else -n), c :: rest) := by
  have hlength : ¬ maxStrDigits < (Nat.toDigits 10 n).length :=
    Nat.not_lt.mpr ((Nat.length_toDigits_le_iff (by decide) (by decide)).mpr hn)
  have hdigit : c.isDigit = false := by
    rcases hc with rfl | rfl <;> rfl
  have hend : fraction (c :: rest) = [] ∧ exponent (c :: rest) = [] := by
    rcases hc with rfl | rfl <;> exact ⟨rfl, rfl⟩
  unfold scanDigits
  rw [scan_toDigits hdigit]
  dsimp only
  rw [List.drop_left, hend.1, List.length_nil, List.drop_zero, hend.2, if_neg Nat.toDigits_ne_nil,
    List.append_nil, if_pos rfl, if_neg hlength, Nat.ofDigitChars_ten_toDigits]

theorem exists_toDigits_cons (n : ℕ) : ∃ d s, Nat.toDigits 10 n = d :: s ∧ d.isDigit = true := by
  obtain ⟨d, s, hs⟩ := List.exists_cons_of_ne_nil (@Nat.toDigits_ne_nil n 10)
  exact ⟨d, s, hs, isDigit_of_mem_toDigits d (hs ▸ List.mem_cons_self)⟩

theorem constants_none {d : Char} (hd : d.isDigit = true) (s : List Char) :
    (constants.find? fun w => w.1.isPrefixOf (d :: s)) = none ∧
      (constants.find? fun w => w.1.isPrefixOf ('-' :: d :: s)) = none := by
  have hbeq : ∀ a : Char, a.isDigit = false → (a == d) = false :=
    fun a ha => beq_eq_false_iff_ne.mpr (ne_of_isDigit hd ha).symm
  constructor <;> simp [constants, List.find?, List.isPrefixOf, hbeq]

theorem dumpsInt_isSome (h : n.natAbs < 10 ^ maxStrDigits) : ∃ text, dumpsInt n = some text := by
  unfold dumpsInt
  rw [if_neg (Nat.not_le.mpr h)]
  exact ⟨_, rfl⟩

theorem isBlank_of_isDigit (hc : c.isDigit = true) : isBlank c = false := by
  simp [isBlank, ne_of_isDigit hc (a := ' ') rfl, ne_of_isDigit hc (a := '\t') rfl,
    ne_of_isDigit hc (a := '\n') rfl, ne_of_isDigit hc (a := '\r') rfl]

theorem renders_dumpsInt (htext : dumpsInt n = some text) : Renders parseFloat text (.int n) := by
  unfold dumpsInt at htext
  obtain ⟨hsmall, htext⟩ := Option.ite_none_left_eq_some.mp htext
  obtain rfl := Option.some.inj htext
  obtain ⟨d, s, hdigits, hd⟩ := exists_toDigits_cons n.natAbs
  rw [hdigits]
  by_cases hneg : n < 0
  · rw [if_pos hneg, List.singleton_append]
    refine ⟨⟨'-', _, rfl, rfl⟩, fun k c rest hc => ?_⟩
    have hvalue : -(n.natAbs : ℤ) = n := by omega
    have hscan := @scanDigits_toDigits parseFloat rest c n.natAbs ['-'] (Nat.not_le.mp hsmall) hc
    rw [if_neg (List.cons_ne_nil _ _), hvalue, hdigits] at hscan
    rw [List.cons_append, List.cons_append, scanOnce, if_neg (by decide), if_neg (by decide),
      if_neg (by decide), (constants_none hd _).2]
    exact hscan
  · rw [if_neg hneg, List.nil_append]
    refine ⟨⟨d, s, rfl, isBlank_of_isDigit hd⟩, fun k c rest hc => ?_⟩
    have hvalue : (n.natAbs : ℤ) = n := by omega
    have hscan := @scanDigits_toDigits parseFloat rest c n.natAbs [] (Nat.not_le.mp hsmall) hc
    have hhead : (d :: (s ++ c :: rest)).head? ≠ some '-' :=
      fun h => ne_of_isDigit hd rfl (Option.some.inj h)
    rw [if_pos rfl, hvalue, hdigits] at hscan
    rw [List.cons_append, scanOnce, if_neg (ne_of_isDigit hd rfl), if_neg (ne_of_isDigit hd rfl),
      if_neg (ne_of_isDigit hd rfl), (constants_none hd _).1]
    dsimp only
    rw [scanNumber, if_neg hhead]
    exact hscan

theorem skip_cons (hc : isBlank c = false) : skip (c :: s) = c :: s :=
  List.dropWhile_cons_of_neg (by simp [hc])

theorem scanMembers_step {k fuel : ℕ} {key : List Char} {entries : List (String × Json)} {v : Json}
    (hkey : ∀ c ∈ key, isPlain c = true) (hrenders : Renders parseFloat text v)
    (hc : c = ',' ∨ c = '}') :
    scanMembers (scanOnce parseFloat (k + 1)) (fuel + 1) entries
      (quote key ++ (": ".toList ++ (text ++ c :: rest))) =
      if c = '}' then some (.dict (setEntry entries (String.ofList key) v), rest)
      else scanMembers (scanOnce parseFloat (k + 1)) fuel (setEntry entries (String.ofList key) v)
        (skip rest) := by
  obtain ⟨⟨a, s, rfl, ha⟩, hscans⟩ := hrenders
  have hspace : skip (' ' :: (a :: s ++ c :: rest)) = a :: s ++ c :: rest := skip_cons ha
  have hcolon : skip (':' :: ' ' :: (a :: s ++ c :: rest)) = ':' :: ' ' :: (a :: s ++ c :: rest) :=
    skip_cons rfl
  have hafter : skip (c :: rest) = c :: rest := skip_cons (by rcases hc with rfl | rfl <;> rfl)
  have htext : ": ".toList ++ (a :: s ++ c :: rest) = ':' :: ' ' :: (a :: s ++ c :: rest) := rfl
  rw [quote_plain hkey, List.cons_append, List.append_assoc, List.singleton_append, scanMembers,
    List.head?_cons, if_pos rfl, List.tail_cons, scanString_plain hkey, htext]
  simp only [Option.bind_eq_bind, Option.bind_some]
  rw [hcolon, List.head?_cons, if_pos rfl, List.tail_cons, hspace, hscans k c rest hc]
  simp only [Option.bind_some, hafter]
  rcases hc with rfl | rfl <;> rfl

/-- A member of a flat dict: its key, the text of its value, and the value. -/
structure Member where
  key : List Char
  text : List Char
  value : Json

def setMembers (entries : List (String × Json)) (members : List Member) : List (String × Json) :=
  members.foldl (fun entries m => setEntry entries (String.ofList m.key) m.value) entries

def Member.Renders (parseFloat : String → Option PyFloat) (m : Member) : Prop :=
  (∀ c ∈ m.key, isPlain c = true) ∧ JsonText.Renders parseFloat m.text m.value

def membersText (members : List Member) : List Char :=
  ", ".toList.intercalate (members.map fun m => quote m.key ++ ": ".toList ++ m.text)

theorem membersText_cons (m : Member) (members : List Member) :
    ∃ t, membersText (m :: members) = '"' :: t := by
  cases members with
  | nil => exact ⟨_, rfl⟩
  | cons m' members => exact ⟨_, rfl⟩

theorem length_le_membersText : ∀ members : List Member, members.length ≤ (membersText members).length
  | [] => Nat.zero_le _
  | [m] => by
    obtain ⟨t, ht⟩ := membersText_cons m []
    rw [ht]
    exact Nat.succ_le_succ (Nat.zero_le _)
  | m :: m' :: members => by
    have ih := length_le_membersText (m' :: members)
    rw [membersText, List.map_cons, List.map_cons, List.intercalate_cons_cons, List.length_append,
      List.length_append]
    change _ ≤ _ + 2 + (membersText (m' :: members)).length
    rw [List.length_cons]
    omega

theorem scanMembers_membersText {k : ℕ} : ∀ (members : List Member) (entries : List (String × Json))
    (fuel : ℕ), members.length ≤ fuel → members ≠ [] → (∀ m ∈ members, m.Renders parseFloat) →
    scanMembers (scanOnce parseFloat (k + 1)) fuel entries (membersText members ++ '}' :: rest) =
      some (.dict (setMembers entries members), rest)
  | [], _, _, _, hne, _ => absurd rfl hne
  | [m], entries, fuel + 1, _, _, hall => by
    obtain ⟨hkey, hrenders⟩ := hall m List.mem_cons_self
    have hstep := @scanMembers_step parseFloat m.text rest '}' k fuel m.key entries m.value hkey
      hrenders (.inr rfl)
    rw [if_pos rfl] at hstep
    rw [membersText, List.map_singleton, List.intercalate_singleton, List.append_assoc,
      List.append_assoc, hstep]
    rfl
  | m :: m' :: members, entries, fuel + 1, hfuel, _, hall => by
    obtain ⟨⟨hkey, hrenders⟩, hall⟩ := List.forall_mem_cons.mp hall
    have ih := @scanMembers_membersText k (m' :: members) (setEntry entries (String.ofList m.key) m.value)
      fuel (Nat.le_of_succ_le_succ hfuel) (List.cons_ne_nil _ _) hall
    have hstep := @scanMembers_step parseFloat m.text
      (' ' :: (membersText (m' :: members) ++ '}' :: rest)) ',' k fuel m.key entries m.value hkey
      hrenders (.inl rfl)
    obtain ⟨t, ht⟩ := membersText_cons m' members
    have hskip : skip (' ' :: (membersText (m' :: members) ++ '}' :: rest)) =
        membersText (m' :: members) ++ '}' :: rest := by
      rw [ht]
      rfl
    rw [if_neg (by decide), hskip] at hstep
    have htext : membersText (m :: m' :: members) ++ '}' :: rest = quote m.key ++
        (": ".toList ++ (m.text ++ ',' :: (' ' :: (membersText (m' :: members) ++ '}' :: rest)))) := by
      rw [membersText, List.map_cons, List.map_cons, List.intercalate_cons_cons]
      simp [membersText]
    rw [htext, hstep, ih]
    rfl

theorem loads_dumpsDict {members : List Member} (hne : members ≠ [])
    (hall : ∀ m ∈ members, m.Renders parseFloat) :
    loads parseFloat (dumpsDict (members.map fun m => (m.key, m.text))) =
      some (.dict (setMembers [] members)) := by
  obtain ⟨m, members, rfl⟩ := List.exists_cons_of_ne_nil hne
  have htext : dumpsDict ((m :: members).map fun m => (m.key, m.text)) =
      '{' :: (membersText (m :: members) ++ ['}']) := by
    rw [dumpsDict, List.map_map]
    rfl
  have hfuel : (m :: members).length ≤ (membersText (m :: members) ++ ['}']).length := by
    rw [List.length_append]
    exact (length_le_membersText _).trans (Nat.le_add_right _ _)
  obtain ⟨t, ht⟩ := membersText_cons m members
  have hskip : skip (membersText (m :: members) ++ ['}']) = membersText (m :: members) ++ ['}'] := by
    rw [ht]
    rfl
  have hhead : (membersText (m :: members) ++ ['}']).head? ≠ some '}' := by
    rw [ht]
    rintro ⟨⟩
  have hscan := @scanMembers_membersText parseFloat [] (membersText (m :: members) ++ ['}']).length
    (m :: members) [] _ hfuel hne hall
  rw [htext, loads, skip_cons rfl, scanOnce, if_neg (by decide), if_pos rfl, hskip, if_neg hhead,
    List.length_cons, hscan]
  rfl

end RoundTrip

end JsonText
