import Mathlib.Data.List.Dedup
import Mathlib.Data.List.Sort
import TgPlatform.Lib.Pattern
import TgPlatform.Lib.Strip

/-! # Names at the start of a reply

A model likes to begin its reply with the name of the one that it answers. Such
names are taken off one after another, in brackets or on their own, but not where
a name is only the beginning of a longer word.
-/

namespace TgPlatform

/-- The order in which a set of strings is iterated over. -/
structure SetOrder where
  arrange : List (List Char) → List (List Char)
  perm : ∀ l, (arrange l).Perm l

/-- `n.strip().lstrip('@')`. -/
def cleanName (n : String) : List Char := (strip n).toList.dropWhile fun c => c = '@'

def cleanNames (names : List String) : List (List Char) :=
  ((names.map cleanName).filter fun w => w ≠ []).dedup

/-- The names in the order of the pattern, the longest ones first. -/
def alternatives (order : SetOrder) (names : List String) : List (List Char) :=
  (order.arrange (cleanNames names)).insertionSort fun v w => w.length ≤ v.length

/-- `[A-Za-z0-9_]` under `re.IGNORECASE`, with the four other letters that it takes for these. -/
def isWordChar (c : Char) : Bool := c.isAlphanum || c ∈ ['_', 'İ', 'ı', 'ſ', '\u212a']

/-- `[\s:：,，、!！~～]`. -/
def isSeparator (c : Char) : Bool := isSpace c || c ∈ [':', '：', ',', '，', '、', '!', '！', '~', '～']

theorem isWordChar_of_isSpace {c : Char} (h : isSpace c = true) : isWordChar c = false := by
  have hnot : (!isWordChar c) = true := @of_isSpace (fun c => !isWordChar c) c h (by decide)
  rwa [Bool.not_eq_true'] at hnot

section Pattern

open Pattern

-- under `re.IGNORECASE`, the `a` of a pattern matches `c` if `same a c`
variable (same : Char → Char → Bool) (names : List (List Char))

def namePattern : Pattern Char Unit := choice (names.map (text same))

/-- `\[name\]`, or `@?name` where the word ends. -/
def markPattern : Pattern Char Unit :=
  ((word ['[']).andThen ((namePattern same names).andThen (word [']']))).orElse
    ((optional (word ['@'])).andThen
      ((namePattern same names).andThen (ahead fun rest => !rest.head?.any isWordChar)))

/-- The pattern of `_strip_names`. -/
def addressPattern : Pattern Char (List Char) :=
  (many isSpace).andThen ((markPattern same names).andThen (many isSeparator))

/-- One of the names, up to the case. -/
def Spells (w : List Char) : Prop := ∃ n ∈ names, List.Forall₂ (fun a c => same a c = true) n w

/-- A name before the rest of a text: in brackets, or on its own and at the end of a word. -/
inductive NameMark : List Char → List Char → Prop
  | inBrackets {w rest : List Char} : Spells same names w → NameMark ('[' :: (w ++ [']'])) rest
  | onItsOwn {at_ w rest : List Char} : at_ ∈ [[], ['@']] → Spells same names w →
      (∀ c ∈ rest.head?, isWordChar c = false) → NameMark (at_ ++ w) rest

def Peels (s t : List Char) : Prop := ∃ blanks mark signs, s = blanks ++ (mark ++ (signs ++ t)) ∧
  (∀ c ∈ blanks, isSpace c = true) ∧ NameMark same names mark (signs ++ t) ∧
    ∀ c ∈ signs, isSeparator c = true

variable {same names} {names' : List (List Char)}

theorem mem_namePattern {s : List Char} {x : Unit × List Char} :
    x ∈ (namePattern same names).tries s ↔ ∃ w, s = w ++ x.2 ∧ Spells same names w := by
  simp only [namePattern, mem_choice, List.mem_map, exists_exists_and_eq_and, mem_text]
  constructor
  · rintro ⟨n, hn, w, rfl, hsame⟩
    exact ⟨w, rfl, n, hn, hsame⟩
  · rintro ⟨w, rfl, n, hn, hsame⟩
    exact ⟨n, hn, w, rfl, hsame⟩

theorem head?_any_eq_false {rest : List Char} :
    (!rest.head?.any isWordChar) = true ↔ ∀ c ∈ rest.head?, isWordChar c = false := by
  cases rest <;> simp

theorem mem_markPattern {s : List Char} {x : Unit × List Char} :
    x ∈ (markPattern same names).tries s ↔ ∃ mark, s = mark ++ x.2 ∧ NameMark same names mark x.2 := by
  simp only [markPattern, mem_orElse, mem_andThen, mem_namePattern, mem_word, mem_optional, mem_ahead,
    head?_any_eq_false]
  constructor
  · rintro (⟨y, rfl, z, ⟨w, hy, hw⟩, hz⟩ | ⟨y, hy, z, ⟨w, hz, hw⟩, hends, rfl⟩)
    · refine ⟨'[' :: (w ++ [']']), ?_, .inBrackets hw⟩
      rw [hy, hz, List.append_cons]
      simp only [List.cons_append, List.nil_append, List.append_assoc]
    · rcases hy with rfl | rfl
      · exact ⟨['@'] ++ w, by rw [hz, List.append_assoc], .onItsOwn (by simp) hw hends⟩
      · exact ⟨[] ++ w, hz, .onItsOwn (by simp) hw hends⟩
  · rintro ⟨mark, rfl, hmark⟩
    cases hmark with
    | @inBrackets w _ hw =>
      refine .inl ⟨((), w ++ ([']'] ++ x.2)), ?_, ((), [']'] ++ x.2), ⟨w, rfl, hw⟩, rfl⟩
      simp only [List.cons_append, List.nil_append, List.append_assoc]
    | @onItsOwn at_ w _ hat hw hends =>
      refine .inr ⟨((), w ++ x.2), ?_, ((), x.2), ⟨w, rfl, hw⟩, hends, rfl⟩
      rcases List.mem_pair.mp hat with rfl | rfl
      · exact .inr rfl
      · exact .inl (List.append_assoc _ _ _)

theorem mem_addressPattern {s : List Char} {x : List Char × List Char} :
    x ∈ (addressPattern same names).tries s ↔ ∃ blanks mark, s = blanks ++ (mark ++ (x.1 ++ x.2)) ∧
      (∀ c ∈ blanks, isSpace c = true) ∧ NameMark same names mark (x.1 ++ x.2) ∧
        ∀ c ∈ x.1, isSeparator c = true := by
  simp only [addressPattern, mem_andThen, mem_many, mem_markPattern]
  constructor
  · rintro ⟨⟨blanks, r⟩, ⟨rfl, hblanks⟩, y, ⟨mark, hr, hmark⟩, hy, hsigns⟩
    rw [hy] at hr hmark
    exact ⟨blanks, mark, congrArg _ hr, hblanks, hmark, hsigns⟩
  · rintro ⟨blanks, mark, rfl, hblanks, hmark, hsigns⟩
    exact ⟨(blanks, mark ++ (x.1 ++ x.2)), ⟨rfl, hblanks⟩, ((), x.1 ++ x.2), ⟨mark, rfl, hmark⟩, rfl,
      hsigns⟩

theorem exists_mem_tries {s t : List Char} :
    (∃ x ∈ (addressPattern same names).tries s, x.2 = t) ↔ Peels same names s t := by
  constructor
  · rintro ⟨x, hx, rfl⟩
    obtain ⟨blanks, mark, hs, hblanks, hmark, hsigns⟩ := mem_addressPattern.mp hx
    exact ⟨blanks, mark, x.1, hs, hblanks, hmark, hsigns⟩
  · rintro ⟨blanks, mark, signs, hs, hblanks, hmark, hsigns⟩
    exact ⟨(signs, t), mem_addressPattern.mpr ⟨blanks, mark, hs, hblanks, hmark, hsigns⟩, rfl⟩

theorem NameMark.ne_nil {mark rest : List Char} (hnames : [] ∉ names)
    (h : NameMark same names mark rest) :
    mark ≠ [] := by
  cases h with
  | inBrackets => exact List.cons_ne_nil _ _
  | onItsOwn _ hw _ =>
    obtain ⟨n, hn, hsame⟩ := hw
    rintro hnil
    obtain ⟨-, rfl⟩ := List.append_eq_nil_iff.mp hnil
    rw [List.forall₂_nil_right_iff] at hsame
    exact hnames (hsame ▸ hn)

theorem Peels.ne {s t : List Char} (hnames : [] ∉ names) (h : Peels same names s t) : t ≠ s := by
  obtain ⟨blanks, mark, signs, hs, -, hmark, -⟩ := h
  have hmark := List.length_pos_iff.mpr (hmark.ne_nil hnames)
  intro heq
  have hlength := congrArg List.length hs
  simp only [List.length_append, heq] at hlength
  omega

theorem erase_address_eq_self {s : List Char} (hnames : [] ∉ names) :
    (addressPattern same names).erase s = s ↔ ∀ t, ¬ Peels same names s t := by
  rw [erase_eq_self fun x hx => (exists_mem_tries.mp ⟨x, hx, rfl⟩).ne hnames]
  simp only [← exists_mem_tries, List.eq_nil_iff_forall_not_mem]
  constructor
  · rintro h t ⟨x, hx, -⟩
    exact h x hx
  · exact fun h x hx => h x.2 ⟨x, hx, rfl⟩

/-- White space around a text does not bring a name to its start. -/
theorem Peels.surround {before s after t : List Char} (hbefore : ∀ c ∈ before, isSpace c = true)
    (hafter : ∀ c ∈ after, isSpace c = true) (h : Peels same names s t) :
    Peels same names (before ++ s ++ after) (t ++ after) := by
  obtain ⟨blanks, mark, signs, rfl, hblanks, hmark, hsigns⟩ := h
  refine ⟨before ++ blanks, mark, signs, by simp only [List.append_assoc], ?_, ?_, hsigns⟩
  · intro c hc
    exact (List.mem_append.mp hc).elim (hbefore c) (hblanks c)
  · rw [← List.append_assoc]
    generalize signs ++ t = rest at hmark ⊢
    cases hmark with
    | inBrackets hw => exact .inBrackets hw
    | onItsOwn hat hw hends =>
      refine .onItsOwn hat hw fun c hc => ?_
      cases rest with
      | nil => exact isWordChar_of_isSpace (hafter c (List.mem_of_mem_head? hc))
      | cons a rest => exact hends c hc

theorem erase_address_perm (hperm : names.Perm names')
    (hnames : names.Pairwise fun v w => w.length ≤ v.length)
    (hnames' : names'.Pairwise fun v w => w.length ≤ v.length) (s : List Char) :
    (addressPattern same names).erase s = (addressPattern same names').erase s := by
  have hname : (namePattern same names).rests = (namePattern same names').rests :=
    funext fun s => rests_words_perm hperm hnames hnames'
  have hmark : (markPattern same names).rests = (markPattern same names').rests := by
    funext s
    simp only [markPattern, rests_orElse, rests_andThen, hname]
  apply erase_congr
  simp only [addressPattern, rests_andThen, hmark]

end Pattern

theorem alternatives_perm (order order' : SetOrder) (names : List String) :
    (alternatives order names).Perm (alternatives order' names) := by
  have harranged := (order.perm (cleanNames names)).trans (order'.perm (cleanNames names)).symm
  exact ((List.perm_insertionSort _ _).trans harranged).trans (List.perm_insertionSort _ _).symm

theorem mem_alternatives {order : SetOrder} {names : List String} {w : List Char} :
    w ∈ alternatives order names ↔ w ∈ cleanNames names :=
  ((List.perm_insertionSort _ _).trans (order.perm _)).mem_iff

theorem alternatives_sorted (order : SetOrder) (names : List String) :
    (alternatives order names).Pairwise fun v w => w.length ≤ v.length := by
  have htotal : Std.Total fun v w : List Char => w.length ≤ v.length := ⟨fun v w => Nat.le_total _ _⟩
  have htrans : IsTrans (List Char) fun v w => w.length ≤ v.length := ⟨fun _ _ _ h h' => h'.trans h⟩
  exact List.pairwise_insertionSort _ _

theorem nil_notMem_alternatives (order : SetOrder) (names : List String) :
    [] ∉ alternatives order names := by
  simp [mem_alternatives, cleanNames]

section StripNames

-- under `re.IGNORECASE`, the `a` of a pattern matches `c` if `same a c`
variable (same : Char → Char → Bool) (order : SetOrder)

def peelAll (names : List String) (out : String) : List Char :=
  (addressPattern same (alternatives order names)).eraseAll out.toList

/-- `_strip_names`. -/
def stripNames (out : String) (names : List String) : String :=
  if alternatives order names = [] then out
  else
    let cleaned := strip (String.ofList (peelAll same order names out))
    if cleaned = "" then out else cleaned

variable {same order}

theorem peelAll_order (order order' : SetOrder) (names : List String) (out : String) :
    peelAll same order names out = peelAll same order' names out :=
  Pattern.eraseAll_congr (erase_address_perm (alternatives_perm order order' names)
    (alternatives_sorted order names) (alternatives_sorted order' names)) _

theorem stripNames_order (order order' : SetOrder) (out : String) (names : List String) :
    stripNames same order out names = stripNames same order' out names := by
  unfold stripNames
  have hnil : alternatives order names = [] ↔ alternatives order' names = [] := by
    constructor
    · intro h
      exact List.nil_perm.mp (h ▸ alternatives_perm order order' names)
    · intro h
      exact List.nil_perm.mp (h ▸ alternatives_perm order' order names)
  simp only [hnil, peelAll_order order order' names out]

/-- The text, after blanks and perhaps an `@`, goes on with the name. -/
def GoesOnWith (same : Char → Char → Bool) (name s rest : List Char) : Prop :=
  ∃ blanks at_ w, s = blanks ++ (at_ ++ (w ++ rest)) ∧ (∀ c ∈ blanks, isSpace c = true) ∧
    at_ ∈ [[], ['@']] ∧ List.Forall₂ (fun a c => same a c = true) name w

/-- The text, after blanks, goes on with the name in brackets. -/
def GoesOnWithBrackets (same : Char → Char → Bool) (name s : List Char) : Prop :=
  ∃ blanks w rest, s = blanks ++ '[' :: (w ++ ']' :: rest) ∧ (∀ c ∈ blanks, isSpace c = true) ∧
    List.Forall₂ (fun a c => same a c = true) name w

/-- The name stands at the start of the text only as the beginning of a longer word. -/
structure MerelyPrefixes (same : Char → Char → Bool) (name s : List Char) : Prop where
  longer : ∀ rest, GoesOnWith same name s rest → ∃ c ∈ rest.head?, isWordChar c = true
  bare : ¬ GoesOnWithBrackets same name s

theorem not_peels_of_merelyPrefixes {names : List (List Char)} {s t : List Char}
    (h : ∀ name ∈ names, MerelyPrefixes same name s) : ¬ Peels same names s t := by
  rintro ⟨blanks, mark, signs, rfl, hblanks, hmark, -⟩
  cases hmark with
  | @inBrackets w _ hw =>
    obtain ⟨n, hn, hsame⟩ := hw
    refine (h n hn).bare ⟨blanks, w, signs ++ t, ?_, hblanks, hsame⟩
    simp only [List.cons_append, List.append_assoc, List.nil_append]
  | @onItsOwn at_ w _ hat hw hends =>
    obtain ⟨n, hn, hsame⟩ := hw
    obtain ⟨c, hc, hword⟩ := (h n hn).longer (signs ++ t)
      ⟨blanks, at_, w, by simp only [List.append_assoc], hblanks, hat, hsame⟩
    rw [hends c hc] at hword
    exact Bool.false_ne_true hword

theorem not_peels_peelAll (names : List String) (out : String) (t : List Char) :
    ¬ Peels same (alternatives order names) (peelAll same order names out) t :=
  (erase_address_eq_self (nil_notMem_alternatives order names)).mp (Pattern.erase_eraseAll _ _) t

theorem peelAll_reaches (names : List String) (out : String) :
    Relation.ReflTransGen (Peels same (alternatives order names)) out.toList
      (peelAll same order names out) := by
  refine Relation.ReflTransGen.mono ?_ _ _ (Pattern.eraseAll_reaches _ _)
  rintro s _ ⟨rfl, hne⟩
  rcases Pattern.erase_cases (p := addressPattern same (alternatives order names)) (s := s) with
    ⟨-, herase⟩ | ⟨x, hx, herase⟩
  · exact absurd herase hne
  · exact exists_mem_tries.mp ⟨x, hx, herase.symm⟩

theorem peelAll_eq_self {names : List String} {out : String}
    (h : ∀ t, ¬ Peels same (alternatives order names) out.toList t) :
    peelAll same order names out = out.toList :=
  Pattern.eraseAll_of_fixed ((erase_address_eq_self (nil_notMem_alternatives order names)).mpr h)

theorem peelAll_strip (names : List String) (out : String) :
    peelAll same order names (strip (String.ofList (peelAll same order names out))) =
      (strip (String.ofList (peelAll same order names out))).toList := by
  apply peelAll_eq_self
  intro t hpeels
  obtain ⟨before, after, hsplit, hbefore, hafter⟩ :=
    exists_around_strip (String.ofList (peelAll same order names out))
  have hpeels := hpeels.surround hbefore hafter
  rw [← hsplit, String.toList_ofList] at hpeels
  exact not_peels_peelAll names out _ hpeels

theorem alternatives_eq_nil {names : List String} :
    alternatives order names = [] ↔ cleanNames names = [] := by
  simp only [List.eq_nil_iff_forall_not_mem, mem_alternatives]

theorem stripNames_eq (out : String) (names : List String) :
    stripNames same order out names =
      if cleanNames names = [] ∨ strip (String.ofList (peelAll same order names out)) = "" then out
      else strip (String.ofList (peelAll same order names out)) := by
  unfold stripNames
  by_cases hnames : cleanNames names = []
  · rw [if_pos (alternatives_eq_nil.mpr hnames), if_pos (.inl hnames)]
  · rw [if_neg (mt alternatives_eq_nil.mp hnames)]
    dsimp only
    simp only [hnames, false_or]

theorem stripNames_cases (out : String) (names : List String) :
    stripNames same order out names = out ∨
      stripNames same order out names = strip (String.ofList (peelAll same order names out)) ∧
        stripNames same order out names ≠ "" := by
  rw [stripNames_eq]
  split_ifs with hkept
  · exact .inl rfl
  · exact .inr ⟨rfl, fun hempty => hkept (.inr hempty)⟩

theorem stripNames_idempotent (out : String) (names : List String) :
    stripNames same order (stripNames same order out names) names =
      stripNames same order out names := by
  rcases @stripNames_cases same order out names with heq | ⟨heq, hne⟩
  · rw [heq, heq]
  · rw [heq] at hne ⊢
    unfold stripNames
    dsimp only
    rw [peelAll_strip, String.ofList_toList, strip_strip, if_neg hne, ite_self]

theorem stripNames_ne_empty {out : String} (hout : ∃ c ∈ out.toList, isSpace c = false)
    (names : List String) : stripNames same order out names ≠ "" := by
  rcases @stripNames_cases same order out names with heq | ⟨-, hne⟩
  · obtain ⟨c, hc, -⟩ := hout
    rw [heq]
    rintro rfl
    cases hc
  · exact hne

/-- **Stripping names.** Whatever the names and their order are, the loop ends; it takes off names
that stand on their own, one after another, and no name is left at the start. What it leaves is the
reply, unless there are no names or nothing but white space is left; a second pass changes nothing; no
text is emptied; and a text whose first word a name merely begins is stripped of white space only. -/
theorem stripNames_strips (same : Char → Char → Bool) (order : SetOrder) (out : String)
    (names : List String) :
    Halts (addressPattern same (alternatives order names)).Round out.toList ∧
    (∃ left, Relation.ReflTransGen (Peels same (alternatives order names)) out.toList left ∧
      (∀ t, ¬ Peels same (alternatives order names) left t) ∧
        stripNames same order out names =
          if cleanNames names = [] ∨ strip (String.ofList left) = "" then out
          else strip (String.ofList left)) ∧
    (∀ order', stripNames same order' (stripNames same order out names) names =
      stripNames same order out names) ∧
    ((∃ c ∈ out.toList, isSpace c = false) → stripNames same order out names ≠ "") ∧
    ((∀ name ∈ cleanNames names, MerelyPrefixes same name out.toList) →
      stripNames same order out names =
        if cleanNames names = [] ∨ strip out = "" then out else strip out) := by
  refine ⟨Pattern.halts_round _ _, ?_, ?_, fun hout => stripNames_ne_empty hout names, ?_⟩
  · exact ⟨_, peelAll_reaches names out, not_peels_peelAll names out, stripNames_eq out names⟩
  · intro order'
    rw [stripNames_order order order' out names]
    exact stripNames_idempotent out names
  · intro hmerely
    have hself : peelAll same order names out = out.toList := by
      apply peelAll_eq_self
      intro t
      exact not_peels_of_merelyPrefixes fun name hname => hmerely name (mem_alternatives.mp hname)
    rw [stripNames_eq, hself, String.ofList_toList]

theorem stripNames_strips_bobby :
    let same : Char → Char → Bool := fun a c => a.toLower = c.toLower
    let order : SetOrder := ⟨id, fun l => .refl l⟩
    stripNames same order "Bobby, hi " ["bob", "@"] ≠ "" ∧
      stripNames same order "Bobby, hi " ["bob", "@"] = "Bobby, hi" := by
  intro same order
  have hnames : cleanNames ["bob", "@"] = [['b', 'o', 'b']] := by decide +kernel
  have hstrip : strip "Bobby, hi " = "Bobby, hi" := by decide +kernel
  have hmerely : ∀ name ∈ cleanNames ["bob", "@"], MerelyPrefixes same name "Bobby, hi ".toList := by
    have htext : "Bobby, hi ".toList = ['B', 'o', 'b', 'b', 'y', ',', ' ', 'h', 'i', ' '] := by
      decide +kernel
    have hspace : isSpace 'B' = false := by decide
    rw [hnames, htext]
    intro name hname
    obtain rfl := List.mem_singleton.mp hname
    constructor
    · rintro rest ⟨blanks, at_, w, hs, hblanks, hat, hw⟩
      cases blanks with
      | cons b blanks =>
        rw [List.cons_append, List.cons.injEq] at hs
        rw [← hs.1] at hblanks
        exact absurd (hblanks 'B' List.mem_cons_self) (by simp [hspace])
      | nil =>
        rcases List.mem_pair.mp hat with rfl | rfl
        · obtain ⟨a, b, c, rfl⟩ := List.length_eq_three.mp hw.length_eq.symm
          simp only [List.nil_append, List.cons_append, List.cons.injEq] at hs
          exact ⟨'b', by rw [← hs.2.2.2]; rfl, by decide⟩
        · simp at hs
    · rintro ⟨blanks, w, rest, hs, hblanks, -⟩
      cases blanks with
      | nil => simp at hs
      | cons b blanks =>
        rw [List.cons_append, List.cons.injEq] at hs
        rw [← hs.1] at hblanks
        exact absurd (hblanks 'B' List.mem_cons_self) (by simp [hspace])
  obtain ⟨-, -, -, hne, hleft⟩ := stripNames_strips same order "Bobby, hi " ["bob", "@"]
  have hleft := hleft hmerely
  rw [hnames, hstrip, if_neg (by decide)] at hleft
  exact ⟨hne ⟨'B', by decide +kernel, by decide⟩, hleft⟩

end StripNames

end TgPlatform
