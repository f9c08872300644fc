import TgPlatform.Lib.JsonText
import TgPlatform.Lib.Pattern
import TgPlatform.Lib.Strip

/-! # References to chats

A chat is referred to by its number, by a user name or by an invitation, and the
latter two come as links too. The link of a name is taken for what its first
segment is, whereas a name with an at sign has to be well formed.
-/

namespace TgPlatform

/-- The value of a decimal digit, as `\d` and `int` know them. -/
structure Decimals where
  value : Char → Option ℕ
  ascii : ∀ c : Char, c.toNat < 128 → value c = if c.isDigit then some (c.toNat - 48) else none

/-- What `parse_ref` classifies a reference as. -/
inductive ChatRef
  | chatId (id : ℤ)
  | username (name : List Char)
  | invite (hash : List Char)
  deriving DecidableEq, Repr

/-! ## Patterns -/

section Patterns

open Pattern

/-- `re.IGNORECASE` for a character of the link pattern: `ſ` counts as an `s`. -/
def ignoreCase (a c : Char) : Bool := a.toLower = c.toLower || (a = 's' && c = 'ſ')

def caseless (w : String) : Pattern Char Unit := text ignoreCase w.toList

/-- `https?://`. -/
def schemePattern : Pattern Char Unit :=
  (caseless "http").andThen ((optional (caseless "s")).andThen (caseless "://"))

/-- `(?:www\.)?t(?:elegram)?\.(?:me|dog)/`. -/
def hostName : Pattern Char Unit :=
  (optional (caseless "www.")).andThen
    ((caseless "t").andThen
      ((optional (caseless "elegram")).andThen
        ((caseless ".").andThen (((caseless "me").orElse (caseless "dog")).andThen (caseless "/")))))

/-- `(?:https?://)?(?:www\.)?t(?:elegram)?\.(?:me|dog)/`. -/
def hostPattern : Pattern Char Unit := (optional schemePattern).andThen hostName

/-- `(?P<path>.+?)/?$`. -/
def pathPattern : Pattern Char (List Char) :=
  shortest (fun c => c ≠ '\n') (fun w => w ≠ [])
    ((optional (word ['/'])).andThen (ahead fun s => s = [] || s = ['\n']))

/-- `_TME_RE`. -/
def tmePattern : Pattern Char (List Char) := hostPattern.andThen pathPattern

def isHashChar (c : Char) : Bool := c.isAlphanum || c = '_' || c = '-'

/-- `invite=([A-Za-z0-9_-]+)`. -/
def invitePattern : Pattern Char (List Char) :=
  (word "invite=".toList).andThen ((many isHashChar).guard fun w => w ≠ [])

end Patterns

/-- `[A-Za-z][A-Za-z0-9_]{3,}`, all of the text. -/
def isName : List Char → Bool
  | [] => false
  | c :: rest => c.isAlpha && 3 ≤ rest.length && rest.all fun c => c.isAlphanum || c = '_'

section ParseRef

variable (d : Decimals)

/-- `int` of decimal digits. -/
def intOfDigits (digits : List Char) : Except String ℤ :=
  if maxStrDigits < digits.length then
    .error ("Exceeds the limit (4300 digits) for integer string conversion: value has " ++
      toString digits.length ++ " digits; use sys.set_int_max_str_digits() to increase the limit")
  else .ok (digits.foldl (fun n c => 10 * n + ((d.value c).getD 0 : ℕ)) 0)

def isDecimal (c : Char) : Bool := (d.value c).isSome

/-- `-?\d+`, all of the text. -/
def isNumber (s : List Char) : Bool :=
  let digits := if s.head? = some '-' then s.tail else s
  digits ≠ [] && digits.all (isDecimal d)

/-- `int` of such a text. -/
def intOf (s : List Char) : Except String ℤ :=
  if s.head? = some '-' then (intOfDigits d s.tail).map fun n => -n else intOfDigits d s

/-- The path of a link, without the slashes in front of it. -/
def tmePath (s : List Char) : Option (List Char) :=
  (tmePattern.first s).map fun x => x.1.dropWhile fun c => c = '/'

/-- `path.split('/')[0]`. -/
def segment (path : List Char) : List Char := path.takeWhile fun c => c ≠ '/'

/-- The digits of `c/(\d+)` at the start of a path. -/
def channelDigits (path : List Char) : List Char :=
  if ['c', '/'] <+: path then (path.drop 2).takeWhile (isDecimal d) else []

def parsePath (s path : List Char) : Except String ChatRef :=
  if ['+'] <+: path then .ok (.invite (segment (path.drop 1)))
  else if "joinchat/".toList <+: path then .ok (.invite (segment (path.drop 9)))
  else if channelDigits d path ≠ [] then
    (intOfDigits d ("100".toList ++ channelDigits d path)).map fun n => .chatId (-n)
  else if segment path ≠ [] then .ok (.username (segment path))
  else .error ("unrecognized t.me link: " ++ String.ofList s)

/-- `parse_ref`, once the text is stripped. -/
def parseStripped (s : List Char) : Except String ChatRef :=
  if s = [] then .error "empty ref"
  else if isNumber d s then (intOf d s).map .chatId
  else if "tg://".toList <+: s then
    match invitePattern.search s with
    | some hash => .ok (.invite hash)
    | none => .error ("unrecognized tg link: " ++ String.ofList s)
  else
    match tmePath s with
    | some path => parsePath d s path
    | none =>
      let name := if s.head? = some '@' then s.tail else s
      if isName name then .ok (.username name)
      else .error ("无法识别的群标识: " ++ String.ofList name)

/-- `parse_ref`, of a string. -/
def parseRef (ref : String) : Except String ChatRef := parseStripped d (strip ref).toList

/-- The name that `_resolve_user` looks up, unless the reference is a bad one. -/
def userRef (ref : String) : Option (List Char) :=
  let s := (strip ref).toList
  let name := (match tmePattern.first s with
    | some x => segment x.1
    | none => s).dropWhile fun c => c = '@'
  if isName name then some name else none

end ParseRef

/-! ## Characters -/

section Characters

variable {c : Char}

theorem isHashChar_ascii (hc : isHashChar c = true) : c.toNat < 128 := by
  unfold isHashChar Char.isAlphanum Char.isAlpha Char.isUpper Char.isLower Char.isDigit at hc
  simp only [Bool.or_eq_true, Bool.and_eq_true, decide_eq_true_eq] at hc
  rcases hc with ((((⟨-, h⟩ | ⟨-, h⟩) | ⟨-, h⟩) | rfl) | rfl)
  · exact Nat.lt_of_le_of_lt (UInt32.le_iff_toNat_le.mp h) (by decide)
  · exact Nat.lt_of_le_of_lt (UInt32.le_iff_toNat_le.mp h) (by decide)
  · exact Nat.lt_of_le_of_lt (UInt32.le_iff_toNat_le.mp h) (by decide)
  · decide
  · decide

theorem of_isHashChar {P : Char → Bool} (hc : isHashChar c = true)
    (hP : ∀ n < 128, isHashChar (Char.ofNat n) = true → P (Char.ofNat n) = true) : P c = true := by
  have h := hP c.toNat (isHashChar_ascii hc)
  rw [Char.ofNat_toNat] at h
  exact h hc

theorem isHashChar_of_isAlpha (hc : c.isAlpha = true) : isHashChar c = true := by
  simp [isHashChar, Char.isAlphanum, hc]

theorem plain_of_isHashChar (hc : isHashChar c = true) :
    c ≠ '/' ∧ c ≠ '\n' ∧ c ≠ '@' ∧ c ≠ '+' ∧ isSpace c = false := by
  have h := @of_isHashChar c
    (fun c => c ≠ '/' && c ≠ '\n' && c ≠ '@' && c ≠ '+' && !isSpace c) hc (by decide)
  simpa [and_assoc] using h

theorem isDigit_of_isAlpha (hc : c.isAlpha = true) : c.isDigit = false ∧ c ≠ '-' := by
  have h := @of_isHashChar c (fun c => !c.isAlpha || (!c.isDigit && c ≠ '-'))
    (isHashChar_of_isAlpha hc) (by decide)
  simpa [hc] using h

theorem head_of_isName {s : List Char} (hs : isName s = true) :
    ∃ c t, s = c :: t ∧ c.isAlpha = true := by
  cases s with
  | nil => cases hs
  | cons c t =>
    simp only [isName, Bool.and_eq_true] at hs
    exact ⟨c, t, rfl, hs.1.1⟩

theorem isHashChar_of_isName {s : List Char} (hs : isName s = true) : ∀ c ∈ s, isHashChar c = true := by
  cases s with
  | nil => simp
  | cons c t =>
    simp only [isName, Bool.and_eq_true, List.all_eq_true] at hs
    obtain ⟨⟨halpha, -⟩, hall⟩ := hs
    refine List.forall_mem_cons.mpr ⟨isHashChar_of_isAlpha halpha, fun c hc => ?_⟩
    simp [isHashChar, by simpa using hall c hc]

theorem not_isName_of_mem {s : List Char} {c : Char} (hmem : c ∈ s) (hc : isHashChar c = false) :
    isName s = false := by
  by_contra hs
  rw [isHashChar_of_isName (by simpa using hs) c hmem] at hc
  cases hc

end Characters

/-! ## Hosts -/

section Host

open Pattern

theorem isAlpha_of_toLower {a c : Char} (h : c.toLower = a) (ha : a.isAlpha = true) :
    c.isAlpha = true := by
  unfold Char.toLower at h
  split at h
  · rename_i hupper
    unfold Char.isAlpha Char.isUpper
    simp only [Bool.or_eq_true, decide_eq_true_eq]
    exact .inl hupper
  · rwa [h]

theorem toLower_of_ignoreCase {a c : Char} (ha : a ≠ 's') (hlow : a.toLower = a)
    (h : ignoreCase a c = true) : c.toLower = a := by
  have hlower : a.toLower = c.toLower := by simpa [ignoreCase, ha] using h
  rw [← hlower, hlow]

theorem begins_caseless (s : String) (a : Char) (hs : s.toList.head? = some a) (ha : a ≠ 's')
    (hlow : a.toLower = a) : (caseless s).Begins fun c => c.toLower = a := by
  obtain ⟨w, hw⟩ := List.head?_eq_some_iff.mp hs
  unfold caseless
  rw [hw]
  exact begins_text.mono fun c h => toLower_of_ignoreCase ha hlow h

theorem toLower_apart {a b : Char} (hne : a ≠ b) (c : Char) (h : c.toLower = a) : ¬ c.toLower = b :=
  fun h' => hne (h.symm.trans h')

theorem caseless_unambiguous (s : String) : (caseless s).Unambiguous := Unambiguous.text

theorem caseless_extends (s : String) : (caseless s).Extends := Extends.text

theorem hostName_unambiguous : hostName.Unambiguous := by
  have hdomain : (((caseless "me").orElse (caseless "dog")).andThen (caseless "/")).Unambiguous :=
    (Unambiguous.orElse (caseless_unambiguous _) (caseless_unambiguous _)
      (begins_caseless "me" 'm' rfl (by decide) rfl)
      (begins_caseless "dog" 'd' rfl (by decide) rfl) (toLower_apart (by decide))).andThen
      (caseless_unambiguous _)
  have hname := Unambiguous.optional (caseless_unambiguous "elegram")
    ((caseless_unambiguous ".").andThen hdomain)
    (begins_caseless "elegram" 'e' rfl (by decide) rfl)
    (begins_caseless "." '.' rfl (by decide) rfl).andThen (toLower_apart (by decide))
  exact Unambiguous.optional (caseless_unambiguous "www.") ((caseless_unambiguous "t").andThen hname)
    (begins_caseless "www." 'w' rfl (by decide) rfl)
    (begins_caseless "t" 't' rfl (by decide) rfl).andThen (toLower_apart (by decide))

theorem hostName_begins : hostName.Begins fun c => c.toLower = 'w' ∨ c.toLower = 't' :=
  Begins.optional ((begins_caseless "www." 'w' rfl (by decide) rfl).mono fun _ h => .inl h)
    ((begins_caseless "t" 't' rfl (by decide) rfl).andThen.mono fun _ h => .inr h)

theorem schemePattern_begins : schemePattern.Begins fun c => c.toLower = 'h' :=
  (begins_caseless "http" 'h' rfl (by decide) rfl).andThen

theorem schemePattern_unambiguous : schemePattern.Unambiguous := by
  have hs : (caseless "s").Begins fun c => ignoreCase 's' c = true := begins_text
  refine (caseless_unambiguous "http").andThen (Unambiguous.optional (caseless_unambiguous "s")
    (caseless_unambiguous "://") hs (begins_caseless "://" ':' rfl (by decide) rfl) ?_)
  intro c hc hcolon
  rcases (by simpa [ignoreCase] using hc : 's'.toLower = c.toLower ∨ c = 'ſ') with hlow | rfl
  · exact absurd (hlow.trans hcolon) (by decide)
  · exact absurd hcolon (by decide)

theorem hostPattern_unambiguous : hostPattern.Unambiguous := by
  refine Unambiguous.optional schemePattern_unambiguous hostName_unambiguous schemePattern_begins
    hostName_begins ?_
  rintro c hh (hw | ht)
  · exact toLower_apart (by decide) c hh hw
  · exact toLower_apart (by decide) c hh ht

theorem hostPattern_begins : hostPattern.Begins fun c => c.isAlpha = true := by
  refine Begins.optional (schemePattern_begins.mono fun c h => isAlpha_of_toLower h (by decide))
    (hostName_begins.mono ?_)
  rintro c (hw | ht)
  · exact isAlpha_of_toLower hw (by decide)
  · exact isAlpha_of_toLower ht (by decide)

theorem hostPattern_extends : hostPattern.Extends := by
  have hdomain : (((caseless "me").orElse (caseless "dog")).andThen (caseless "/")).Extends :=
    (Extends.orElse (caseless_extends _) (caseless_extends _)).andThen (caseless_extends _)
  have hname : hostName.Extends :=
    (caseless_extends "www.").optional.andThen ((caseless_extends "t").andThen
      ((caseless_extends "elegram").optional.andThen ((caseless_extends ".").andThen hdomain)))
  have hscheme : schemePattern.Extends :=
    (caseless_extends "http").andThen
      ((caseless_extends "s").optional.andThen (caseless_extends "://"))
  exact hscheme.optional.andThen hname

theorem eq_of_toLower {a c : Char} (h : c.toLower = a) (ha : a.isAlpha = false) : c = a := by
  unfold Char.toLower at h
  split at h
  · rename_i hupper
    have hlo : 65 ≤ c.val.toNat := UInt32.le_iff_toNat_le.mp hupper.1
    have hhi : c.val.toNat ≤ 90 := UInt32.le_iff_toNat_le.mp hupper.2
    have hval : (c.val + ('a'.val - 'A'.val)).toNat = c.val.toNat + 32 := by
      rw [UInt32.toNat_add]
      change (c.val.toNat + 32) % 2 ^ 32 = _
      omega
    have hlower : a.isAlpha = true := by
      unfold Char.isAlpha Char.isLower
      rw [← h, Bool.or_eq_true, Bool.and_eq_true, decide_eq_true_eq, decide_eq_true_eq,
        ge_iff_le, UInt32.le_iff_toNat_le, UInt32.le_iff_toNat_le, hval]
      exact .inr ⟨Nat.add_le_add_right hlo 32, Nat.add_le_add_right hhi 32⟩
    rw [ha] at hlower
    cases hlower
  · exact h

theorem mem_of_hostPattern {s : List Char} {x : Unit × List Char} (hx : x ∈ hostPattern.tries s) :
    '/' ∈ s := by
  obtain ⟨c, hc, rfl⟩ : ∃ c ∈ s, c = '/' := by
    refine mem_of_andThen hx fun t y hy => mem_of_andThen hy fun t y hy => mem_of_andThen hy
      fun t y hy => mem_of_andThen hy fun t y hy => mem_of_andThen hy fun t y hy =>
      mem_of_andThen hy fun t y hy => ?_
    have hbegins := begins_caseless "/" '/' rfl (by decide) rfl
    exact (hbegins.mono fun c h => eq_of_toLower h (by decide)).mem hy
  exact hc

end Host

/-! ## Paths -/

section Path

open Pattern

variable {s w slash : List Char}

theorem mem_pathPattern {x : List Char × List Char} (hx : x ∈ pathPattern.tries s) :
    '\n' ∉ x.1 ∧ x.1 ≠ [] ∧ (x.2 = [] ∨ x.2 = ['\n']) ∧
      (s = x.1 ++ x.2 ∨ s = x.1 ++ '/' :: x.2) := by
  obtain ⟨hline, hne, t, rfl, hafter⟩ := mem_shortest.mp hx
  obtain ⟨y, hy, hend⟩ := mem_andThen.mp hafter
  obtain ⟨hend, hrest⟩ := mem_ahead.mp hend
  have hrest : x.2 = y.2 := congrArg Prod.snd hrest
  refine ⟨fun hmem => by simpa using hline _ hmem, by simpa using hne, ?_, ?_⟩
  · rw [hrest]
    simpa using hend
  · rw [hrest]
    rcases mem_optional.mp hy with hy | rfl
    · exact .inr (by rw [mem_word.mp hy]; rfl)
    · exact .inl rfl

theorem first_pathPattern (hw : w ≠ []) (hline : '\n' ∉ w)
    (hslash : slash = ['/'] ∨ slash = [] ∧ (w.getLast? ≠ some '/' ∨ w.length = 1)) :
    pathPattern.first (w ++ slash) = some (w, []) := by
  have hlines : '\n' ∉ w ++ slash := by
    rcases hslash with rfl | ⟨rfl, -⟩ <;> simp [hline]
  refine first_shortest (mem_shortest.mpr ⟨?_, by simpa using hw, slash, rfl, ?_⟩) ?_
  · intro c hc
    exact decide_eq_true fun h => hline (h ▸ hc)
  · refine mem_andThen.mpr ⟨((), []), mem_optional.mpr ?_, mem_ahead.mpr ⟨rfl, rfl⟩⟩
    rcases hslash with rfl | ⟨rfl, -⟩
    · exact .inl (mem_word.mpr rfl)
    · exact .inr rfl
  · rintro ⟨v, r⟩ hy hle
    obtain ⟨-, hv, hend, hparts⟩ := mem_pathPattern hy
    obtain rfl : r = [] := by
      rcases hend with rfl | rfl
      · rfl
      · exfalso
        apply hlines
        rcases hparts with h | h <;> rw [h] <;> simp
    rcases hparts with hparts | hparts
    · have hlength := congrArg List.length hparts
      rw [List.append_nil] at hparts
      rcases hslash with rfl | ⟨rfl, -⟩
      · simp only [List.length_append, List.length_cons, List.length_nil] at hlength hle
        omega
      · rw [List.append_nil] at hparts
        rw [hparts]
    · rcases hslash with rfl | ⟨rfl, hlast⟩
      · rw [List.append_cancel_right hparts]
      · exfalso
        rw [List.append_nil] at hparts
        subst hparts
        rcases hlast with hlast | hlast
        · exact hlast (List.getLast?_concat)
        · rw [List.length_append] at hlast
          exact hv (List.length_eq_zero_iff.mp (by simpa using hlast))

theorem exists_path (hs : s ≠ []) (hline : '\n' ∉ s) : ∃ w slash, s = w ++ slash ∧
    w ≠ [] ∧ (slash = ['/'] ∨ slash = []) ∧ pathPattern.first s = some (w, []) := by
  obtain ⟨v, c, rfl⟩ := (List.eq_nil_or_concat' s).resolve_left hs
  by_cases hc : c = '/' ∧ v ≠ []
  · obtain ⟨rfl, hv⟩ := hc
    exact ⟨v, ['/'], by simp, hv, .inl rfl,
      first_pathPattern hv (fun h => hline (List.mem_append_left _ h)) (.inl rfl)⟩
  · refine ⟨v ++ [c], [], by simp, by simp, .inr rfl, ?_⟩
    have hfirst := @first_pathPattern (v ++ [c]) [] (by simp) hline (.inr ⟨rfl, ?_⟩)
    · rwa [List.append_nil] at hfirst
    · by_cases hv : v = []
      · exact .inr (by rw [hv]; rfl)
      · refine .inl fun hlast => hc ⟨?_, hv⟩
        rw [List.getLast?_concat] at hlast
        exact Option.some.inj hlast

theorem pathPattern_eq_none (h : s = [] ∨ '\n' ∈ s) (hlast : s.getLast? ≠ some '\n') :
    pathPattern.first s = none := by
  refine first_eq_none.mpr (List.eq_nil_iff_forall_not_mem.mpr fun x hx => ?_)
  obtain ⟨hline, hne, hend, hparts⟩ := mem_pathPattern hx
  have hend : x.2 = [] := by
    refine hend.resolve_right fun hend => hlast ?_
    rcases hparts with rfl | rfl <;> rw [hend]
    · exact List.getLast?_concat
    · rw [List.append_cons, List.getLast?_concat]
  rw [hend] at hparts
  rcases h with rfl | hmem
  · rcases hparts with h | h
    · exact hne (List.append_eq_nil_iff.mp h.symm).1
    · exact hne (List.append_eq_nil_iff.mp h.symm).1
  · rcases hparts with rfl | rfl
    · exact hline (by simpa using hmem)
    · exact hline (by simpa using hmem)

end Path

/-! ## Links -/

def IsHost (h : List Char) : Prop := ((), []) ∈ hostPattern.tries h

instance (h : List Char) : Decidable (IsHost h) := inferInstanceAs (Decidable (_ ∈ _))

example : IsHost "https://www.telegram.me/".toList := by decide

section Link

open Pattern

variable {d : Decimals} {h s : List Char} {c : Char}

theorem Decimals.value_eq_none (hc : c.toNat < 128) (hdigit : c.isDigit = false) :
    d.value c = none := by
  rw [d.ascii c hc, hdigit]
  rfl

theorem isNumber_eq_false (hc : d.value c = none) (hne : c ≠ '-') : isNumber d (c :: s) = false := by
  simp [isNumber, isDecimal, hc, hne]

theorem isNumber_of_isAlpha (hc : c.isAlpha = true) : isNumber d (c :: s) = false := by
  obtain ⟨hdigit, hne⟩ := isDigit_of_isAlpha hc
  exact isNumber_eq_false (d.value_eq_none (isHashChar_ascii (isHashChar_of_isAlpha hc)) hdigit) hne

/-- What is no number, nor a link of the application or to a web page, is a name. -/
theorem parseStripped_name (hs : s ≠ []) (hnumber : isNumber d s = false)
    (htg : ¬ "tg://".toList <+: s) (hpath : tmePattern.first s = none) : parseStripped d s =
    let name := if s.head? = some '@' then s.tail else s
    if isName name then .ok (.username name)
    else .error ("无法识别的群标识: " ++ String.ofList name) := by
  rw [parseStripped, if_neg hs, hnumber, if_neg Bool.false_ne_true, if_neg htg, tmePath, hpath]
  rfl

theorem tmePattern_eq_none (hslash : '/' ∉ s ∨ ∀ c ∈ s.head?, c.isAlpha = false) :
    tmePattern.first s = none := by
  refine first_eq_none.mpr (List.eq_nil_iff_forall_not_mem.mpr fun x hx => ?_)
  obtain ⟨y, hy, -⟩ := mem_andThen.mp hx
  rcases hslash with hslash | hhead
  · exact hslash (mem_of_hostPattern hy)
  · obtain ⟨c, hc, halpha⟩ := hostPattern_begins s y hy
    rw [hhead c hc] at halpha
    cases halpha

theorem parseStripped_at : parseStripped d ('@' :: s) =
    if isName s then .ok (.username s) else .error ("无法识别的群标识: " ++ String.ofList s) := by
  have hnumber : isNumber d ('@' :: s) = false :=
    isNumber_eq_false (d.value_eq_none (by decide) (by decide)) (by decide)
  have htg : ¬ "tg://".toList <+: '@' :: s := by
    rintro ⟨r, hr⟩
    cases hr
  exact parseStripped_name (List.cons_ne_nil _ _) hnumber htg (tmePattern_eq_none (.inr (by simp)))

theorem IsHost.tries (hhost : IsHost h) (s : List Char) : ((), s) ∈ hostPattern.tries (h ++ s) :=
  hostPattern_extends h ((), []) hhost s

theorem IsHost.first (hhost : IsHost h) : tmePattern.first (h ++ s) = pathPattern.first s :=
  hostPattern_unambiguous.first_andThen (hhost.tries s)

theorem IsHost.tmePath (hhost : IsHost h) : tmePath (h ++ s) =
    (pathPattern.first s).map fun x => x.1.dropWhile fun c => c = '/' := by
  rw [TgPlatform.tmePath, hhost.first]

theorem IsHost.head (hhost : IsHost h) : ∃ c t, h = c :: t ∧ c.isAlpha = true := by
  obtain ⟨c, hc, halpha⟩ := hostPattern_begins h _ hhost
  obtain ⟨t, rfl⟩ := List.head?_eq_some_iff.mp hc
  exact ⟨c, t, rfl, halpha⟩

theorem IsHost.mem (hhost : IsHost h) : '/' ∈ h := mem_of_hostPattern hhost

theorem IsHost.not_tg (hhost : IsHost h) : ¬ "tg://".toList <+: h ++ s := by
  rintro ⟨t, ht⟩
  have htries := hhost.tries s
  rw [← ht] at htries
  have hnil : hostPattern.tries ("tg://".toList ++ t) = [] := rfl
  rw [hnil] at htries
  cases htries

theorem IsHost.parseStripped (hhost : IsHost h) : parseStripped d (h ++ s) =
    match pathPattern.first s with
    | some x => parsePath d (h ++ s) (x.1.dropWhile fun c => c = '/')
    | none => .error ("无法识别的群标识: " ++ String.ofList (h ++ s)) := by
  obtain ⟨c, t, rfl, halpha⟩ := hhost.head
  have hne : c :: t ++ s ≠ [] := List.cons_ne_nil _ _
  have hnumber : isNumber d (c :: t ++ s) = false := isNumber_of_isAlpha halpha
  cases hfirst : pathPattern.first s with
  | some x =>
    rw [TgPlatform.parseStripped, if_neg hne, hnumber,
      if_neg Bool.false_ne_true, if_neg hhost.not_tg, hhost.tmePath, hfirst]
    rfl
  | none =>
    have hat : (c :: t ++ s).head? ≠ some '@' := by
      rintro ⟨⟩
      cases halpha
    have hname : isName (c :: t ++ s) = false :=
      not_isName_of_mem (List.mem_append_left _ hhost.mem) (by decide)
    rw [parseStripped_name hne hnumber hhost.not_tg (by rw [hhost.first, hfirst])]
    dsimp only
    rw [if_neg hat, hname]
    rfl

end Link

/-! ## Well-formed meanings -/

def IsHash (hash : List Char) : Prop := hash ≠ [] ∧ ∀ c ∈ hash, isHashChar c = true

def ChatRef.WellFormed : ChatRef → Prop
  | .chatId _ => True
  | .username name => isName name = true
  | .invite hash => IsHash hash

/-- The path of a text that is taken for a link to a web page. -/
def linkPath (d : Decimals) (s : List Char) : Option (List Char) :=
  if isNumber d s = true ∨ "tg://".toList <+: s then none else tmePath s

def LinkFits (d : Decimals) (path : List Char) : Prop :=
  if ['+'] <+: path then IsHash (segment (path.drop 1))
  else if "joinchat/".toList <+: path then IsHash (segment (path.drop 9))
  else channelDigits d path ≠ [] ∨ segment path = [] ∨ isName (segment path) = true

section WellFormed

open Pattern

variable {d : Decimals} {s path : List Char} {r : ChatRef}

theorem isHash_of_search {hash : List Char} (h : invitePattern.search s = some hash) :
    IsHash hash := by
  obtain ⟨t, x, -, hx, rfl⟩ := exists_of_search h
  obtain ⟨y, -, hx⟩ := mem_andThen.mp hx
  obtain ⟨hmany, hne⟩ := mem_guard.mp hx
  exact ⟨by simpa using hne, (mem_many.mp hmany).2⟩

theorem wellFormed_of_map_chatId {n : Except String ℤ} {f : ℤ → ℤ}
    (h : n.map (fun n => ChatRef.chatId (f n)) = .ok r) : r.WellFormed := by
  cases n with
  | error e => cases h
  | ok n =>
    cases h
    trivial

/-- A path is taken for something well-formed exactly if it fits. -/
theorem parsePath_wellFormed_iff :
    (∀ r, parsePath d s path = .ok r → r.WellFormed) ↔ LinkFits d path := by
  unfold parsePath LinkFits
  split
  · simp [ChatRef.WellFormed]
  split
  · simp [ChatRef.WellFormed]
  split
  · rename_i hdigits
    exact iff_of_true (fun r hr => wellFormed_of_map_chatId hr) (.inl hdigits)
  rename_i hdigits
  split
  · rename_i hsegment
    simp [ChatRef.WellFormed, hdigits, hsegment]
  · rename_i hsegment
    refine iff_of_true (by simp) (.inr (.inl ?_))
    simpa using hsegment

theorem parseStripped_wellFormed_iff : (∀ r, parseStripped d s = .ok r → r.WellFormed) ↔
    ∀ path, linkPath d s = some path → LinkFits d path := by
  unfold parseStripped linkPath
  by_cases hs : s = []
  · subst hs
    have hpath : tmePath [] = none := rfl
    simp [hpath]
  rw [if_neg hs]
  by_cases hnumber : isNumber d s = true
  · rw [if_pos hnumber, if_pos (.inl hnumber)]
    exact iff_of_true (fun r hr => wellFormed_of_map_chatId hr) (by simp)
  rw [if_neg hnumber]
  by_cases htg : "tg://".toList <+: s
  · rw [if_pos htg, if_pos (.inr htg)]
    refine iff_of_true (fun r hr => ?_) (by simp)
    split at hr
    · rename_i hash hsearch
      cases hr
      exact isHash_of_search hsearch
    · cases hr
  rw [if_neg htg, if_neg (not_or.mpr ⟨hnumber, htg⟩)]
  cases tmePath s with
  | some path => simp [← parsePath_wellFormed_iff (s := s)]
  | none =>
    refine iff_of_true (fun r hr => ?_) (by simp)
    dsimp only at hr
    generalize (if s.head? = some '@' then s.tail else s) = name at hr
    split at hr
    · rename_i hname
      cases hr
      exact hname
    · cases hr

end WellFormed

/-! ## Spellings -/

inductive NameSpelling (name : List Char) : List Char → Prop
  | plain : NameSpelling name name
  | at_sign : NameSpelling name ('@' :: name)
  | link {h slash : List Char} : IsHost h → slash = ['/'] ∨ slash = [] →
      NameSpelling name (h ++ (name ++ slash))

inductive HashSpelling (hash : List Char) : List Char → Prop
  | plus {h slash : List Char} : IsHost h → slash = ['/'] ∨ slash = [] →
      HashSpelling hash (h ++ ('+' :: hash ++ slash))
  | joinchat {h slash : List Char} : IsHost h → slash = ['/'] ∨ slash = [] →
      HashSpelling hash (h ++ ("joinchat/".toList ++ hash ++ slash))
  | tg : HashSpelling hash ("tg://join?invite=".toList ++ hash)

section Spellings

open Pattern

variable {d : Decimals} {h s name hash slash t : List Char}

theorem takeWhile_eq_self_of_plain (hs : ∀ c ∈ s, isHashChar c = true) : segment s = s :=
  List.takeWhile_eq_self_iff.mpr fun c hc => decide_eq_true (plain_of_isHashChar (hs c hc)).1

theorem parseRef_ofList (hs : s ≠ []) (hfirst : ∀ c ∈ s.head?, isSpace c = false)
    (hlast : ∀ c ∈ s.getLast?, isSpace c = false) :
    parseRef d (String.ofList s) = parseStripped d s := by
  rw [parseRef, strip_ofList hfirst hlast hs, String.toList_ofList]

theorem getLast_plain {w : List Char} (hw : w ≠ []) (hplain : ∀ c ∈ w, isHashChar c = true)
    (hslash : slash = ['/'] ∨ slash = []) : ∀ c ∈ (s ++ (w ++ slash)).getLast?, isSpace c = false := by
  intro c hc
  rcases hslash with rfl | rfl
  · rw [← List.append_assoc, List.getLast?_concat] at hc
    obtain rfl := Option.mem_some_iff.mp hc
    decide
  · rw [List.append_nil, List.getLast?_append_of_ne_nil _ hw] at hc
    exact (plain_of_isHashChar (hplain c (List.mem_of_getLast? hc))).2.2.2.2

theorem IsHost.parseRef {w v : List Char} (hhost : IsHost h) (hw : w ≠ [])
    (hplain : ∀ c ∈ w, isHashChar c = true) (hslash : slash = ['/'] ∨ slash = [])
    (hline : '\n' ∉ v) : parseRef d (String.ofList (h ++ ((v ++ w) ++ slash))) =
      parsePath d (h ++ ((v ++ w) ++ slash)) ((v ++ w).dropWhile fun c => c = '/') := by
  obtain ⟨c, t, rfl, halpha⟩ := hhost.head
  have hfirst : pathPattern.first ((v ++ w) ++ slash) = some (v ++ w, []) := by
    refine first_pathPattern (by simp [hw]) ?_ (hslash.imp_right fun h => ⟨h, .inl fun hlast => ?_⟩)
    · intro hmem
      rcases List.mem_append.mp hmem with hmem | hmem
      · exact hline hmem
      · exact (plain_of_isHashChar (hplain _ hmem)).2.1 rfl
    · rw [List.getLast?_append_of_ne_nil _ hw] at hlast
      exact (plain_of_isHashChar (hplain _ (List.mem_of_getLast? hlast))).1 rfl
  have hne : c :: t ++ ((v ++ w) ++ slash) ≠ [] := List.cons_ne_nil _ _
  rw [parseRef_ofList hne, hhost.parseStripped, hfirst]
  · rintro _ ⟨⟩
    exact (plain_of_isHashChar (isHashChar_of_isAlpha halpha)).2.2.2.2
  · rw [List.append_assoc v, ← List.append_assoc (c :: t)]
    exact getLast_plain hw hplain hslash

theorem parsePath_name (hname : isName name = true) : parsePath d s name = .ok (.username name) := by
  obtain ⟨c, t, rfl, halpha⟩ := head_of_isName hname
  have hplain := isHashChar_of_isName hname
  have hslash : '/' ∉ c :: t := fun hmem => (plain_of_isHashChar (hplain _ hmem)).1 rfl
  have hplus : ¬ ['+'] <+: c :: t := by
    intro hpre
    exact (plain_of_isHashChar (hplain '+' (hpre.subset List.mem_cons_self))).2.2.2.1 rfl
  have hjoin : ¬ "joinchat/".toList <+: c :: t := fun hpre => hslash (hpre.subset (by decide))
  have hchannel : channelDigits d (c :: t) = [] :=
    if_neg fun hpre => hslash (hpre.subset (by decide))
  rw [parsePath, if_neg hplus, if_neg hjoin, hchannel, if_neg (not_not.mpr rfl),
    takeWhile_eq_self_of_plain hplain, if_pos (List.cons_ne_nil c t)]

theorem dropWhile_slash {c : Char} (hc : c ≠ '/') : ((c :: s).dropWhile fun c => c = '/') = c :: s :=
  List.dropWhile_cons_of_neg (by simpa using hc)

theorem parseRef_nameSpelling (hname : isName name = true) (ht : NameSpelling name t) :
    parseRef d (String.ofList t) = .ok (.username name) := by
  have hplain := isHashChar_of_isName hname
  obtain ⟨c, v, rfl, halpha⟩ := head_of_isName hname
  have hhead := plain_of_isHashChar (isHashChar_of_isAlpha halpha)
  have hlast : ∀ a ∈ (c :: v).getLast?, isSpace a = false := fun a ha =>
    (plain_of_isHashChar (hplain a (List.mem_of_getLast? ha))).2.2.2.2
  cases ht with
  | plain =>
    have hslash : '/' ∉ c :: v := fun hmem => (plain_of_isHashChar (hplain _ hmem)).1 rfl
    have htg : ¬ "tg://".toList <+: c :: v := fun hpre => hslash (hpre.subset (by decide))
    have hat : (c :: v).head? ≠ some '@' := fun h => hhead.2.2.1 (Option.some.inj h)
    rw [parseRef_ofList (List.cons_ne_nil c v) (by simpa using hhead.2.2.2.2) hlast,
      parseStripped_name (List.cons_ne_nil c v) (isNumber_of_isAlpha halpha) htg
        (tmePattern_eq_none (.inl hslash))]
    dsimp only
    rw [if_neg hat, if_pos hname]
  | at_sign =>
    rw [parseRef_ofList (List.cons_ne_nil '@' _) (by simp; decide) (by simpa using hlast),
      parseStripped_at, if_pos hname]
  | @link h slash hhost hslash =>
    have hparse := @IsHost.parseRef d h slash (c :: v) [] hhost (List.cons_ne_nil c v) hplain hslash
      (List.not_mem_nil)
    rw [List.nil_append, dropWhile_slash hhead.1] at hparse
    exact hparse.trans (parsePath_name hname)

theorem search_invitePattern (hhash : IsHash hash) :
    invitePattern.search ("tg://join?invite=".toList ++ hash) = some hash := by
  have htake : hash.takeWhile isHashChar = hash := List.takeWhile_eq_self_iff.mpr hhash.2
  have hdrop : hash.dropWhile isHashChar = [] := List.dropWhile_eq_nil_iff.mpr hhash.2
  have hmany : ((many isHashChar).guard fun w => w ≠ []).first hash = some (hash, []) := by
    refine first_guard ?_ (by simpa using hhash.1)
    rw [first_many, htake, hdrop]
  have hfirst : invitePattern.first ("invite=".toList ++ hash) = some (hash, []) := by
    have hword : ((), hash) ∈ (word "invite=".toList).tries ("invite=".toList ++ hash) :=
      mem_word.mpr rfl
    exact (Unambiguous.text.first_andThen hword).trans hmany
  have hskip : invitePattern.search ("tg://join?invite=".toList ++ hash) =
      invitePattern.search ("invite=".toList ++ hash) := rfl
  rw [hskip, search_of_first hfirst]

theorem parseRef_hashSpelling (hhash : IsHash hash) (ht : HashSpelling hash t) :
    parseRef d (String.ofList t) = .ok (.invite hash) := by
  obtain ⟨hne, hplain⟩ := hhash
  cases ht with
  | @plus h slash hhost hslash =>
    have hparse := @IsHost.parseRef d h slash hash ['+'] hhost hne hplain hslash (by decide)
    rw [List.singleton_append, dropWhile_slash (by decide)] at hparse
    refine hparse.trans ?_
    rw [parsePath, if_pos ⟨hash, rfl⟩]
    exact congrArg (fun w => Except.ok (ChatRef.invite w)) (takeWhile_eq_self_of_plain hplain)
  | @joinchat h slash hhost hslash =>
    have hparse := @IsHost.parseRef d h slash hash "joinchat/".toList hhost hne hplain hslash (by decide)
    refine hparse.trans ?_
    have hdrop : ("joinchat/".toList ++ hash).dropWhile (fun c => c = '/') =
      "joinchat/".toList ++ hash := rfl
    have hplus : ¬ ['+'] <+: "joinchat/".toList ++ hash := by
      rintro ⟨r, hr⟩
      cases hr
    rw [hdrop, parsePath, if_neg hplus, if_pos ⟨hash, rfl⟩]
    exact congrArg (fun w => Except.ok (ChatRef.invite w)) (takeWhile_eq_self_of_plain hplain)
  | tg =>
    have hlast : ∀ c ∈ ("tg://join?invite=".toList ++ hash).getLast?, isSpace c = false := by
      intro c hc
      rw [List.getLast?_append_of_ne_nil _ hne] at hc
      exact (plain_of_isHashChar (hplain c (List.mem_of_getLast? hc))).2.2.2.2
    have hnumber : isNumber d ("tg://join?invite=".toList ++ hash) = false :=
      isNumber_of_isAlpha (by decide)
    have hnonempty : "tg://join?invite=".toList ++ hash ≠ [] := List.cons_ne_nil _ _
    rw [parseRef_ofList hnonempty (by rintro _ ⟨⟩; decide) hlast, parseStripped, if_neg hnonempty,
      hnumber, if_neg Bool.false_ne_true, if_pos ⟨"join?invite=".toList ++ hash, rfl⟩,
      search_invitePattern ⟨hne, hplain⟩]

end Spellings

/-! ## Names and links -/

def Rejected (d : Decimals) (t : List Char) : Prop :=
  (∀ c ∈ t, c = '/') ∨ '\n' ∈ t ∨
    maxStrDigits < (channelDigits d (t.dropWhile fun c => c = '/')).length + 3

section Agreement

variable {d : Decimals} {s t path : List Char}

theorem channelDigits_concat_slash : channelDigits d (path ++ ['/']) = channelDigits d path := by
  have hslash : isDecimal d '/' = false := by
    rw [isDecimal, d.value_eq_none (by decide) (by decide)]
    rfl
  match path with
  | [] => rfl
  | [a] =>
    have hdrop : (if ['c', '/'] <+: [a] ++ ['/'] then
      (List.drop 2 ([a] ++ ['/'])).takeWhile (isDecimal d) else []) = [] := ite_self _
    have hshort : ¬ ['c', '/'] <+: [a] := fun hpre => Nat.not_succ_le_self 1 hpre.length_le
    rw [channelDigits, channelDigits, hdrop, if_neg hshort]
  | a :: b :: path =>
    have htake : (path ++ ['/']).takeWhile (isDecimal d) = path.takeWhile (isDecimal d) := by
      rw [List.takeWhile_append]
      split
      · rename_i hlength
        rw [List.takeWhile_cons_of_neg (by simp [hslash]), List.append_nil]
        exact ((List.takeWhile_sublist _).eq_of_length hlength).symm
      · rfl
    simp [channelDigits, htake]

theorem intOfDigits_isOk {digits : List Char} :
    (∃ n, intOfDigits d digits = .ok n) ↔ digits.length ≤ maxStrDigits := by
  unfold intOfDigits
  split
  · rename_i hlong
    exact iff_of_false (by simp) (Nat.not_le.mpr hlong)
  · rename_i hlong
    exact iff_of_true ⟨_, rfl⟩ (Nat.not_lt.mp hlong)

theorem channelDigits_eq_nil {c : Char} (hc : c ≠ 'c') : channelDigits d (c :: path) = [] := by
  refine if_neg ?_
  rintro ⟨r, hr⟩
  exact hc (List.cons_eq_cons.mp hr).1.symm

theorem segment_eq_nil (hhead : path.head? ≠ some '/') : segment path = [] ↔ path = [] := by
  cases path with
  | nil => simp [segment]
  | cons c path =>
    have hc : c ≠ '/' := fun h => hhead (congrArg some h)
    simp [segment, hc]

theorem parsePath_isOk (hhead : path.head? ≠ some '/') : (∃ r, parsePath d s path = .ok r) ↔
    path ≠ [] ∧ (channelDigits d path).length + 3 ≤ maxStrDigits := by
  unfold parsePath
  split
  · rename_i hplus
    obtain ⟨r, rfl⟩ := hplus
    have hdigits : channelDigits d (['+'] ++ r) = [] := channelDigits_eq_nil (by decide)
    rw [hdigits]
    exact iff_of_true ⟨_, rfl⟩ ⟨List.cons_ne_nil _ _, by decide⟩
  split
  · rename_i hjoin
    obtain ⟨r, rfl⟩ := hjoin
    have hdigits : channelDigits d ("joinchat/".toList ++ r) = [] := channelDigits_eq_nil (by decide)
    rw [hdigits]
    exact iff_of_true ⟨_, rfl⟩ ⟨List.cons_ne_nil _ _, by decide⟩
  split
  · rename_i hdigits
    have hpath : path ≠ [] := by
      rintro rfl
      exact hdigits rfl
    have hint := @intOfDigits_isOk d ("100".toList ++ channelDigits d path)
    rw [List.length_append, Nat.add_comm] at hint
    rw [and_iff_right hpath]
    refine Iff.trans ?_ hint
    constructor
    · rintro ⟨r, hr⟩
      cases hn : intOfDigits d ("100".toList ++ channelDigits d path) with
      | error e =>
        rw [hn] at hr
        cases hr
      | ok n => exact ⟨n, rfl⟩
    · rintro ⟨n, hn⟩
      exact ⟨_, by rw [hn]; rfl⟩
  · rename_i hdigits
    rw [not_not] at hdigits
    rw [hdigits, ite_not]
    split
    · rename_i hsegment
      rw [segment_eq_nil hhead] at hsegment
      exact iff_of_false (by simp) (by simp [hsegment])
    · rename_i hsegment
      rw [segment_eq_nil hhead] at hsegment
      exact iff_of_true ⟨_, rfl⟩ ⟨hsegment, by decide⟩

theorem dropWhile_slash_eq_nil : (t.dropWhile fun c => c = '/') = [] ↔ ∀ c ∈ t, c = '/' := by
  simp [List.dropWhile_eq_nil_iff]

theorem head_dropWhile_slash : (t.dropWhile fun c => c = '/').head? ≠ some '/' := by
  intro h
  have hnot := List.head?_dropWhile_not (fun c : Char => c = '/') t
  rw [h] at hnot
  simp at hnot

theorem link_isOk_iff {h : List Char} (hhost : IsHost h) (hlast : t.getLast? ≠ some '\n') :
    (∃ r, parseStripped d (h ++ t) = .ok r) ↔ ¬ Rejected d t := by
  rw [hhost.parseStripped]
  by_cases hnone : t = [] ∨ '\n' ∈ t
  · rw [pathPattern_eq_none hnone hlast]
    refine iff_of_false (by simp) (not_not.mpr ?_)
    rcases hnone with rfl | hline
    · exact .inl (by simp)
    · exact .inr (.inl hline)
  · obtain ⟨hne, hline⟩ := not_or.mp hnone
    obtain ⟨w, slash, rfl, -, hslash, hfirst⟩ := exists_path hne hline
    rw [hfirst]
    refine (parsePath_isOk head_dropWhile_slash).trans ?_
    have hall : (w.dropWhile fun c => c = '/') = [] ↔ ∀ c ∈ w ++ slash, c = '/' := by
      rw [dropWhile_slash_eq_nil, List.forall_mem_append]
      rcases hslash with rfl | rfl <;> simp
    have hdigits : channelDigits d ((w ++ slash).dropWhile fun c => c = '/') =
        channelDigits d (w.dropWhile fun c => c = '/') := by
      rcases hslash with rfl | rfl
      · rw [List.dropWhile_append]
        split
        · rename_i hempty
          rw [List.isEmpty_iff.mp hempty]
          rfl
        · exact channelDigits_concat_slash
      · rw [List.append_nil]
    rw [Rejected, hdigits, ← hall, or_iff_right hline, not_or, Nat.not_lt]

theorem at_isOk_iff : (∃ r, parseStripped d ('@' :: t) = .ok r) ↔ isName t = true := by
  rw [parseStripped_at]
  split
  · rename_i hname
    exact iff_of_true ⟨_, rfl⟩ hname
  · rename_i hname
    exact iff_of_false (by simp) hname

theorem not_rejected_of_isName (hname : isName t = true) : ¬ Rejected d t := by
  obtain ⟨c, t, rfl, halpha⟩ := head_of_isName hname
  have hplain := isHashChar_of_isName hname
  have hslash := (plain_of_isHashChar (isHashChar_of_isAlpha halpha)).1
  rintro (hall | hline | hlong)
  · exact hslash (hall c List.mem_cons_self)
  · exact (plain_of_isHashChar (hplain _ hline)).2.1 rfl
  · have hdigits : channelDigits d (c :: t) = [] := by
      refine if_neg fun hpre => ?_
      exact (plain_of_isHashChar (hplain '/' (hpre.subset (by decide)))).1 rfl
    rw [dropWhile_slash hslash, hdigits] at hlong
    exact absurd hlong (by decide)

theorem strip_at (X : String) : (strip ("@" ++ X)).toList = '@' :: X.toList.rdropWhile isSpace := by
  have happend : "@" ++ X = String.ofList (['@'] ++ X.toList) := by
    simp
  have hfirst : ∀ c ∈ ['@'].head?, isSpace c = false := by
    rintro _ ⟨⟩
    decide
  rw [happend, strip_append hfirst hfirst (List.cons_ne_nil '@' []), String.toList_ofList]
  rfl

theorem strip_link (X : String) :
    (strip ("t.me/" ++ X)).toList = "t.me/".toList ++ X.toList.rdropWhile isSpace := by
  have happend : "t.me/" ++ X = String.ofList ("t.me/".toList ++ X.toList) := by
    rw [← String.toList_inj, String.toList_append, String.toList_ofList, String.toList_ofList]
  have hfirst : ∀ c ∈ "t.me/".toList.head?, isSpace c = false := by
    rintro _ ⟨⟩
    decide
  have hlast : ∀ c ∈ "t.me/".toList.getLast?, isSpace c = false := by
    rintro _ ⟨⟩
    decide
  rw [happend, strip_append hfirst hlast (by decide), String.toList_ofList]

theorem getLast_rdropWhile (s : List Char) : (s.rdropWhile isSpace).getLast? ≠ some '\n' := by
  intro h
  obtain ⟨hne, hlast⟩ := List.mem_getLast?_eq_getLast h
  have hnot := List.rdropWhile_last_not isSpace s hne
  rw [← hlast] at hnot
  exact hnot (by decide)

theorem not_isName_dropWhile_at (ht : t = [] ∨ '\n' ∈ t) :
    isName (t.dropWhile fun c => c = '@') = false := by
  rcases ht with rfl | hline
  · rfl
  · refine not_isName_of_mem (c := '\n') ?_ (by decide)
    rw [← List.takeWhile_append_dropWhile (p := fun c => decide (c = '@')) (l := t)] at hline
    refine (List.mem_append.mp hline).resolve_left fun htake => ?_
    exact absurd (List.mem_takeWhile_imp htake) (by decide)

/-- A name with an at sign and the link to it come to the same, so long as there is no slash. -/
theorem userRef_agrees {X : String} (hslash : '/' ∉ X.toList) :
    userRef ("@" ++ X) = userRef ("t.me/" ++ X) := by
  have hhost : IsHost "t.me/".toList := by decide
  have hat : ∀ t, tmePattern.first ('@' :: t) = none := fun t => tmePattern_eq_none (.inr (by simp))
  have hkept : '/' ∉ X.toList.rdropWhile isSpace :=
    fun h => hslash ((List.rdropWhile_prefix _ _).subset h)
  unfold userRef
  rw [strip_at, strip_link]
  have hlast := getLast_rdropWhile X.toList
  generalize X.toList.rdropWhile isSpace = t at hkept hlast
  dsimp only
  rw [hat, hhost.first]
  have hdrop : (('@' :: t).dropWhile fun c => c = '@') = t.dropWhile fun c => c = '@' := rfl
  by_cases hnone : t = [] ∨ '\n' ∈ t
  · have hlink : (("t.me/".toList ++ t).dropWhile fun c => c = '@') = "t.me/".toList ++ t := rfl
    have hmem : '/' ∈ "t.me/".toList ++ t := List.mem_append_left _ hhost.mem
    rw [pathPattern_eq_none hnone hlast]
    dsimp only
    rw [hdrop, hlink, not_isName_dropWhile_at hnone, not_isName_of_mem hmem (by decide)]
    rfl
  · obtain ⟨hne, hline⟩ := not_or.mp hnone
    obtain ⟨w, slash, rfl, -, hends, hfirst⟩ := exists_path hne hline
    obtain rfl : slash = [] := hends.resolve_left fun h => hkept (by simp [h])
    rw [List.append_nil] at hkept hdrop hfirst ⊢
    have hsegment : segment w = w :=
      List.takeWhile_eq_self_iff.mpr fun c hc => decide_eq_true fun h => hkept (h ▸ hc)
    simp only [hfirst, hdrop, hsegment]

/-- Every reference is taken for something well-formed exactly if the path of a link fits, the
spellings of a name and of a hash come to the same, and a text with an at sign is accepted
together with the link to it exactly if it is a name or the link is rejected. -/
theorem parseRef_meaning (d : Decimals) :
    (∀ ref, (∀ r, parseRef d ref = .ok r → r.WellFormed) ↔
      ∀ path, linkPath d (strip ref).toList = some path → LinkFits d path) ∧
    (∀ name t, isName name = true → NameSpelling name t →
      parseRef d (String.ofList t) = .ok (.username name)) ∧
    (∀ hash t, IsHash hash → HashSpelling hash t →
      parseRef d (String.ofList t) = .ok (.invite hash)) ∧
    (∀ X : String, ((∃ r, parseRef d ("@" ++ X) = .ok r) ↔ ∃ r, parseRef d ("t.me/" ++ X) = .ok r) ↔
      isName (X.toList.rdropWhile isSpace) = true ∨ Rejected d (X.toList.rdropWhile isSpace)) ∧
    ∀ X : String, '/' ∉ X.toList → userRef ("@" ++ X) = userRef ("t.me/" ++ X) := by
  refine ⟨fun ref => parseStripped_wellFormed_iff, fun _ _ => parseRef_nameSpelling,
    fun _ _ => parseRef_hashSpelling, fun X => ?_, fun X => userRef_agrees⟩
  have hlink := @link_isOk_iff d (X.toList.rdropWhile isSpace) "t.me/".toList (by decide)
    (getLast_rdropWhile _)
  rw [parseRef, parseRef, strip_at, strip_link, at_isOk_iff, hlink]
  have hname := @not_rejected_of_isName d (X.toList.rdropWhile isSpace)
  tauto

/-- The digits of `\d` and `int` that are in ASCII. -/
def asciiDecimals : Decimals where
  value c := if c.isDigit then some (c.toNat - 48) else none
  ascii _ _ := rfl

theorem parseRef_meaning_of_link : parseRef asciiDecimals
    (String.ofList ("https://t.me/".toList ++ ("qunzua123".toList ++ ['/']))) =
      .ok (.username "qunzua123".toList) :=
  (parseRef_meaning asciiDecimals).2.1 _ _ (by decide) (.link (by decide) (.inl rfl))

/-- A name of two letters is rejected with an at sign and taken as a link. -/
theorem short_name_accepted_as_link :
    parseRef asciiDecimals "t.me/ab" = .ok (.username "ab".toList) ∧
      ¬ (ChatRef.username "ab".toList).WellFormed ∧
      (∀ r, parseRef asciiDecimals "@ab" ≠ .ok r) ∧
      userRef "t.me/ab" = none ∧ userRef "@ab" = none := by
  have hat : parseRef asciiDecimals "@ab" = .error "无法识别的群标识: ab" := by decide +kernel
  refine ⟨by decide +kernel, by simp [ChatRef.WellFormed, isName], ?_, by decide +kernel,
    by decide +kernel⟩
  rw [hat]
  rintro r ⟨⟩

end Agreement

end TgPlatform
