import TgPlatform.Control.AiScope
import TgPlatform.Lib.Except
import TgPlatform.Rules.Service
import TgPlatform.Worker.JoinChats

/-! # References that look like numbers

A reference of digits, possibly after minus signs, is taken for a number without
asking Telegram. The guard lets more through than `int` reads: several signs,
digits that are not decimal, and numbers that are too long.
-/

namespace TgPlatform

/-- The digits of `str.isdigit`: the decimal ones and others, such as superscripts. -/
structure Digits extends Decimals where
  digit : Char → Bool
  digit_of_decimal : ∀ c, isDecimal toDecimals c = true → digit c = true
  digit_ascii : ∀ c : Char, c.toNat < 128 → digit c = c.isDigit

/-- `int` of a text without a sign: single underscores may stand between the digits. -/
def intOfUnsigned (d : Decimals) (s : List Char) : Option ℤ :=
  if (s.splitOn '_').all fun w => w ≠ [] && w.all (isDecimal d) then
    (intOfDigits d (s.filter fun c => c ≠ '_')).toOption
  else none

/-- `int` of a text. -/
def intOfText (d : Decimals) (s : String) : Option ℤ :=
  match (strip s).toList with
  | '-' :: s => (intOfUnsigned d s).map fun n => -n
  | '+' :: s => intOfUnsigned d s
  | s => intOfUnsigned d s

namespace Digits

variable (d : Digits)

/-- `s.isdigit()`. -/
def isDigits (s : String) : Bool := s ≠ "" && s.toList.all d.digit

/-- `s.lstrip('-').isdigit()`. -/
def isNumeric (s : String) : Bool :=
  d.isDigits (String.ofList (s.toList.dropWhile fun c => c = '-'))

end Digits

/-- One sign at most, decimal digits only, and not too many of them. -/
structure Readable (d : Decimals) (s : String) : Prop where
  sign : ¬ ['-', '-'] <+: s.toList
  decimal : ∀ c ∈ s.toList, c ≠ '-' → isDecimal d c = true
  short : (s.toList.filter fun c => c ≠ '-').length ≤ maxStrDigits

/-- `int` succeeds and gives what `parse_ref` gives. -/
def Converts (d : Decimals) (s : String) : Prop :=
  ∃ n, intOfText d s = some n ∧ parseRef d s = .ok (.chatId n)

/-- `parse_ref` rejects the reference. -/
def Malformed (d : Decimals) (ref : String) : Prop := ∃ e, parseRef d ref = .error e

/-! ## What passes the guard -/

section Guard

variable {d : Digits} {s : String} {c : Char}

theorem Digits.ne_of_digit {a : Char} (hc : d.digit c = true) (ha : a.toNat < 128)
    (hdigit : a.isDigit = false) : c ≠ a := by
  rintro rfl
  rw [d.digit_ascii c ha, hdigit] at hc
  cases hc

theorem Digits.not_isAlpha (hc : d.digit c = true) : c.isAlpha = false := by
  by_contra halpha
  have halpha : c.isAlpha = true := by simpa using halpha
  have hascii := isHashChar_ascii (isHashChar_of_isAlpha halpha)
  exact d.ne_of_digit hc hascii (isDigit_of_isAlpha halpha).1 rfl

/-- Minus signs, and digits after them. -/
structure Digits.Guarded (d : Digits) (s m t : List Char) : Prop where
  eq : s = m ++ t
  minus : ∀ c ∈ m, c = '-'
  nonempty : t ≠ []
  digits : ∀ c ∈ t, d.digit c = true

theorem Digits.guarded_of_isNumeric (h : d.isNumeric s = true) : ∃ m t, d.Guarded s.toList m t := by
  obtain ⟨hne, hall⟩ : (s.toList.dropWhile fun c => c = '-') ≠ [] ∧
      ∀ c ∈ s.toList.dropWhile fun c => c = '-', d.digit c = true := by
    simpa [isNumeric, isDigits] using h
  refine ⟨s.toList.takeWhile fun c => c = '-', s.toList.dropWhile fun c => c = '-',
    List.takeWhile_append_dropWhile.symm, fun c hc => ?_, hne, hall⟩
  simpa using List.mem_takeWhile_imp hc

theorem Digits.isNumeric_of_isDigits (h : d.isDigits s = true) : d.isNumeric s = true := by
  obtain ⟨hne, hall⟩ : s ≠ "" ∧ ∀ c ∈ s.toList, d.digit c = true := by simpa [isDigits] using h
  have hkept : (s.toList.dropWhile fun c => c = '-') = s.toList := by
    rw [List.dropWhile_eq_self_iff]
    intro hlength
    have hdigit := hall _ (List.getElem_mem hlength)
    simpa using d.ne_of_digit hdigit (a := '-') (by decide) (by decide)
  rw [isNumeric, hkept, String.ofList_toList]
  exact h

def signless (s : List Char) : List Char := if s.head? = some '-' then s.tail else s

section Guarded

variable {l m t : List Char}

theorem Digits.Guarded.mem_signless (h : d.Guarded l m t) :
    ∀ c ∈ signless l, c = '-' ∨ d.digit c = true := by
  intro c hc
  have hmem : c ∈ l := by
    unfold signless at hc
    split at hc
    · exact List.mem_of_mem_tail hc
    · exact hc
  rw [h.eq] at hmem
  exact (List.mem_append.mp hmem).imp (h.minus c) (h.digits c)

theorem Digits.Guarded.head_digit (h : d.Guarded l [] t) : ∃ c r, l = c :: r ∧ d.digit c = true := by
  obtain ⟨c, r, rfl⟩ := List.exists_cons_of_ne_nil h.nonempty
  exact ⟨c, r, h.eq, h.digits c List.mem_cons_self⟩

theorem Digits.Guarded.signless_ne_nil (h : d.Guarded l m t) : signless l ≠ [] := by
  cases m with
  | nil =>
    obtain ⟨c, r, rfl, hc⟩ := h.head_digit
    have hminus : c ≠ '-' := d.ne_of_digit hc (by decide) (by decide)
    simp [signless, hminus]
  | cons a m =>
    obtain rfl := h.minus a List.mem_cons_self
    have htail : signless l = m ++ t := by rw [h.eq]; rfl
    rw [htail]
    exact List.append_ne_nil_of_right_ne_nil m h.nonempty

theorem Digits.Guarded.head (h : d.Guarded l m t) :
    ∃ c r, l = c :: r ∧ (c = '-' ∨ d.digit c = true) := by
  cases m with
  | nil =>
    obtain ⟨c, r, hl, hc⟩ := h.head_digit
    exact ⟨c, r, hl, .inr hc⟩
  | cons a m => exact ⟨a, m ++ t, h.eq, .inl (h.minus a List.mem_cons_self)⟩

theorem Digits.Guarded.isNumber_eq (h : d.Guarded l m t) :
    isNumber d.toDecimals l = (signless l).all (isDecimal d.toDecimals) := by
  have hne := h.signless_ne_nil
  unfold isNumber
  change (decide (signless l ≠ []) && _) = _
  rw [decide_eq_true hne, Bool.true_and]
  rfl

theorem intOfUnsigned_eq (d : Decimals) {u : List Char} (hu : '_' ∉ u) (hne : u ≠ []) :
    intOfUnsigned d u = if u.all (isDecimal d) then (intOfDigits d u).toOption else none := by
  have hsplit : u.splitOn '_' = [u] := by
    refine List.splitOnP_eq_singleton fun c hc => ?_
    simpa using fun heq : c = '_' => hu (heq ▸ hc)
  have hfilter : (u.filter fun c => c ≠ '_') = u := by
    rw [List.filter_eq_self]
    intro c hc
    simpa using fun heq : c = '_' => hu (heq ▸ hc)
  rw [intOfUnsigned, hsplit, hfilter]
  simp [hne]

theorem intOf_eq (d : Decimals) : intOf d l =
    if l.head? = some '-' then (intOfDigits d (signless l)).map fun n => -n
    else intOfDigits d (signless l) := by
  unfold intOf signless
  split <;> rfl

theorem Digits.Guarded.intOfText_eq (h : d.Guarded s.toList m t) (hs : strip s = s) :
    intOfText d.toDecimals s =
      if isNumber d.toDecimals s.toList then (intOf d.toDecimals s.toList).toOption else none := by
  have hunderscore : '_' ∉ signless s.toList := by
    intro hmem
    refine (h.mem_signless _ hmem).elim (by decide) fun hdigit => ?_
    exact d.ne_of_digit hdigit (a := '_') (by decide) (by decide) rfl
  have hint := intOfUnsigned_eq d.toDecimals hunderscore h.signless_ne_nil
  rw [h.isNumber_eq, intOf_eq]
  obtain ⟨c, r, hl, hc⟩ := h.head
  rw [intOfText, hs]
  rw [hl] at hint ⊢
  rcases hc with rfl | hc
  · change Option.map _ (intOfUnsigned _ (signless ('-' :: r))) = _
    rw [hint, if_pos (show ('-' :: r).head? = some '-' from rfl)]
    split
    · cases intOfDigits d.toDecimals (signless ('-' :: r)) <;> rfl
    · rfl
  · have hminus : c ≠ '-' := d.ne_of_digit hc (by decide) (by decide)
    have hplus : c ≠ '+' := d.ne_of_digit hc (by decide) (by decide)
    have hhead : ¬ (c :: r).head? = some '-' := by simpa using hminus
    have hsignless : signless (c :: r) = c :: r := if_neg hhead
    rw [hsignless] at hint
    rw [hsignless, if_neg hhead]
    split
    · rename_i heq
      exact absurd (List.cons_eq_cons.mp heq).1 hminus
    · rename_i heq
      exact absurd (List.cons_eq_cons.mp heq).1 hplus
    · exact hint

theorem Digits.Guarded.parseRef_cases (h : d.Guarded s.toList m t) (hs : strip s = s) :
    (isNumber d.toDecimals s.toList = true ∧
      parseRef d.toDecimals s = (intOf d.toDecimals s.toList).map .chatId) ∨
    (isNumber d.toDecimals s.toList = false ∧ Malformed d.toDecimals s) := by
  obtain ⟨c, r, hl, hc⟩ := h.head
  have hne : s.toList ≠ [] := by simp [hl]
  unfold Malformed parseRef
  rw [hs]
  cases hnumber : isNumber d.toDecimals s.toList with
  | true =>
    refine .inl ⟨rfl, ?_⟩
    rw [parseStripped, if_neg hne, if_pos hnumber]
  | false =>
    have hfixed : c.isAlpha = false ∧ c ≠ '@' ∧ c ≠ 't' := by
      rcases hc with rfl | hc
      · decide
      · exact ⟨d.not_isAlpha hc, d.ne_of_digit hc (by decide) (by decide),
          d.ne_of_digit hc (by decide) (by decide)⟩
    have htg : ¬ "tg://".toList <+: s.toList := by
      rw [hl]
      rintro ⟨u, hu⟩
      exact hfixed.2.2 (List.cons_eq_cons.mp hu).1.symm
    have hpath : tmePattern.first s.toList = none := by
      refine tmePattern_eq_none (.inr ?_)
      rw [hl]
      rintro _ ⟨⟩
      exact hfixed.1
    have hname : isName s.toList = false := by simp [hl, isName, hfixed.1]
    have hat : s.toList.head? ≠ some '@' := by simpa [hl] using hfixed.2.1
    refine .inr ⟨rfl, "无法识别的群标识: " ++ String.ofList s.toList, ?_⟩
    rw [parseStripped_name hne hnumber htg hpath]
    dsimp only
    rw [if_neg hat, hname]
    rfl

theorem Digits.Guarded.filter_eq (h : d.Guarded l m t) : (l.filter fun c => c ≠ '-') = t := by
  have hminus : (m.filter fun c => c ≠ '-') = [] := by
    rw [List.filter_eq_nil_iff]
    intro c hc
    simpa using h.minus c hc
  have hdigits : (t.filter fun c => c ≠ '-') = t := by
    rw [List.filter_eq_self]
    intro c hc
    simpa using d.ne_of_digit (h.digits c hc) (a := '-') (by decide) (by decide)
  rw [h.eq, List.filter_append, hminus, hdigits, List.nil_append]

theorem Digits.Guarded.unsigned_eq (h : d.Guarded l m t) :
    (signless l = t ∧ ¬ ['-', '-'] <+: l) ∨ ('-' ∈ signless l ∧ ['-', '-'] <+: l) := by
  match m, h with
  | [], h =>
    obtain ⟨c, r, hl, hc⟩ := h.head_digit
    have hminus : c ≠ '-' := d.ne_of_digit hc (by decide) (by decide)
    refine .inl ⟨?_, ?_⟩
    · have ht : l = t := h.eq
      rw [← ht]
      exact if_neg (by simpa [hl] using hminus)
    · rw [hl]
      rintro ⟨u, hu⟩
      exact hminus (List.cons_eq_cons.mp hu).1.symm
  | [a], h =>
    obtain rfl := h.minus a List.mem_cons_self
    have hl : l = '-' :: t := h.eq
    refine .inl ⟨by rw [hl]; rfl, ?_⟩
    rw [hl]
    rintro ⟨u, hu⟩
    have ht : '-' :: u = t := (List.cons_eq_cons.mp hu).2
    have hdigit := h.digits '-' (ht ▸ List.mem_cons_self)
    exact d.ne_of_digit hdigit (a := '-') (by decide) (by decide) rfl
  | a :: b :: m, h =>
    obtain rfl := h.minus a List.mem_cons_self
    obtain rfl := h.minus b (List.mem_cons_of_mem _ List.mem_cons_self)
    have hl : l = '-' :: '-' :: (m ++ t) := h.eq
    refine .inr ⟨?_, ?_⟩
    · rw [hl]
      exact List.mem_cons_self
    · exact ⟨m ++ t, hl.symm⟩

theorem Digits.Guarded.readable_iff (h : d.Guarded s.toList m t) : Readable d.toDecimals s ↔
    isNumber d.toDecimals s.toList = true ∧ (signless s.toList).length ≤ maxStrDigits := by
  have hminus : isDecimal d.toDecimals '-' = false := by
    rw [isDecimal, d.toDecimals.value_eq_none (by decide) (by decide)]
    rfl
  rw [h.isNumber_eq, List.all_eq_true]
  rcases h.unsigned_eq with ⟨hsignless, hsign⟩ | ⟨hmem, hsign⟩
  · rw [hsignless]
    constructor
    · rintro ⟨-, hdecimal, hshort⟩
      rw [h.filter_eq] at hshort
      refine ⟨fun c hc => hdecimal c ?_ ?_, hshort⟩
      · rw [h.eq]
        exact List.mem_append_right m hc
      · exact d.ne_of_digit (h.digits c hc) (by decide) (by decide)
    · rintro ⟨hdecimal, hshort⟩
      refine ⟨hsign, fun c hc hne => ?_, ?_⟩
      · rw [h.eq] at hc
        exact hdecimal c ((List.mem_append.mp hc).resolve_left fun hm => hne (h.minus c hm))
      · rwa [h.filter_eq]
  · refine iff_of_false (fun hread => hread.sign hsign) fun hboth => ?_
    have hdecimal := hboth.1 '-' hmem
    rw [hminus] at hdecimal
    cases hdecimal

end Guarded

/-- What passes the guard converts, or `int` raises and `parse_ref` rejects it. -/
theorem Digits.guard_cases (hs : strip s = s) (h : d.isNumeric s = true) :
    (Readable d.toDecimals s ∧ Converts d.toDecimals s) ∨
      (¬ Readable d.toDecimals s ∧ intOfText d.toDecimals s = none ∧ Malformed d.toDecimals s) := by
  obtain ⟨m, t, hguarded⟩ := d.guarded_of_isNumeric h
  rw [hguarded.readable_iff, Converts, hguarded.intOfText_eq hs]
  rcases hguarded.parseRef_cases hs with ⟨hnumber, hparse⟩ | ⟨hnumber, hmalformed⟩
  · rw [hnumber, if_pos rfl, Malformed, hparse, intOf_eq]
    have hint := @intOfDigits_isOk d.toDecimals (signless s.toList)
    cases hdigits : intOfDigits d.toDecimals (signless s.toList) with
    | ok n =>
      rw [hdigits] at hint
      refine .inl ⟨⟨rfl, hint.mp ⟨n, rfl⟩⟩, ?_⟩
      split
      · exact ⟨-n, rfl, rfl⟩
      · exact ⟨n, rfl, rfl⟩
    | error e =>
      rw [hdigits] at hint
      have hlong : ¬ (signless s.toList).length ≤ maxStrDigits := fun hle => by
        obtain ⟨n, hn⟩ := hint.mpr hle
        cases hn
      refine .inr ⟨fun hboth => hlong hboth.2, ?_⟩
      split
      · exact ⟨rfl, e, rfl⟩
      · exact ⟨rfl, e, rfl⟩
  · rw [hnumber, if_neg Bool.false_ne_true]
    exact .inr ⟨fun hboth => Bool.false_ne_true hboth.1, rfl, hmalformed⟩

theorem Digits.converts_iff (hs : strip s = s) (h : d.isNumeric s = true) :
    Converts d.toDecimals s ↔ Readable d.toDecimals s := by
  rcases d.guard_cases hs h with ⟨hread, hconverts⟩ | ⟨hread, hint, -⟩
  · exact iff_of_true hconverts hread
  · refine iff_of_false ?_ hread
    rintro ⟨n, hn, -⟩
    rw [hint] at hn
    cases hn

theorem malformed_strip {d : Decimals} {ref : String} : Malformed d (strip ref) ↔ Malformed d ref := by
  unfold Malformed parseRef
  rw [strip_strip]

end Guard

/-! ## Where the guards stand -/

/-- The runtime, which opens the session of an account: what is behind a reference to a chat, and
which user has a name. -/
structure Runtime where
  chats : TelegramAccount → Except ApiError (ChatRef → JoinResult)
  users : TelegramAccount → Except ApiError (List Char → Option ℤ)

/-- `_resolve_one`. -/
def resolveOne (d : Decimals) (visit : ChatRef → JoinResult) (ref : String) : JoinResult :=
  match parseRef d ref with
  | .ok r => visit r
  | .error _ => .failed "bad_ref"

/-- A round of `join_chat_refs` without a runtime. -/
def numericChat (d : Digits) (ref : String) : Except Raised (String × ℤ) :=
  if d.isNumeric (strip ref) then
    match intOfText d.toDecimals (strip ref) with
    | some chatId => .ok (strip ref, chatId)
    | none => .error (.uncaught "ValueError")
  else .error (.error ⟨.request, "当前环境不支持链接进群,请填写数字群 ID"⟩)

/-- `join_chat_refs`. -/
def joinChats (d : Digits) (runtime : Option Runtime) (account : TelegramAccount)
    (refs : List String) : Except Raised (String → Option JoinResult) :=
  match runtime with
  | none => (refs.mapM (numericChat d)).map fun found ref => (found.lookup ref).map .ok
  | some r =>
    match r.chats account with
    | .ok visit => .ok fun ref => if ref ∈ refs then some (resolveOne d.toDecimals visit ref) else none
    | .error e => .error (.error e)

/-- `resolve_user_refs`. -/
def resolveUsers (runtime : Option Runtime) (account : TelegramAccount) (users : List String) :
    Except Raised (String → Option ℤ) :=
  match runtime with
  | none => .error (.error ⟨.request, "当前环境不支持 @用户名,请填写数字发言人 ID"⟩)
  | some r =>
    match r.users account with
    | .ok find => .ok fun ref => if ref ∈ users then (userRef ref).bind find else none
    | .error e => .error (.error e)

/-- The platform with a runtime, if one is configured, and the digits of the interpreter. -/
def Outside.resolving (out : Outside) (d : Digits) (runtime : Option Runtime) : Outside :=
  { out with
    python := { out.python with parseInt := intOfText d.toDecimals, isDigit := d.isDigits }
    join := fun _ => joinChats d runtime
    resolveUsers := TgPlatform.resolveUsers runtime }

/-- Malformed references are reported as request errors, once all that is needed is there, and
nothing ends in a `ValueError`. -/
structure Reports {α : Type} (ready malformed : Prop) (answer : Except Raised α) : Prop where
  handled : answer ≠ .error (.uncaught "ValueError")
  reported : ready → malformed → ∃ msg, answer = .error (.error ⟨.request, msg⟩)

/-- The account is there, and its session can be opened if there is a runtime. -/
def Connects {β : Type} (opened : Runtime → TelegramAccount → Except ApiError β)
    (runtime : Option Runtime) (account : Option TelegramAccount) : Prop :=
  ∃ a, account = some a ∧ ∀ r ∈ runtime, ∃ found, opened r a = .ok found

def filterTokens (out : Outside) (filters : List (String × Json)) : Option (List String) :=
  (senderTokens out filters "sender_user_ids").bind fun senders =>
    (senderTokens out filters "blocked_sender_ids").map fun blocked => senders ++ blocked

/-- The users behind the tokens that are no numbers, if they can be asked for. -/
def usersOf (d : Digits) (runtime : Option Runtime) (account : Option TelegramAccount)
    (tokens : List String) : Option (String → Option ℤ) :=
  let names := tokens.filter fun t => !d.isDigits t
  if names = [] then some fun _ => none
  else account.bind fun a => (resolveUsers runtime a names.eraseDups).toOption

section Sites

variable {d : Digits} {runtime : Option Runtime} {out : Outside} {account : TelegramAccount}
  {s : ControlPlane} {ref : String} {refs : List String}

theorem resolving_parseInt :
    (out.resolving d runtime).python.parseInt = intOfText d.toDecimals := by
  simp only [Outside.resolving]

theorem resolving_isDigit : (out.resolving d runtime).python.isDigit = d.isDigits := by
  simp only [Outside.resolving]

theorem senderTokens_resolving : senderTokens (out.resolving d runtime) = senderTokens out := by
  unfold senderTokens
  simp only [Outside.resolving]

theorem Reports.of_ok {α : Type} {ready malformed : Prop} {a : α} (h : ¬ malformed) :
    Reports ready malformed (.ok a) := ⟨nofun, fun _ hmalformed => absurd hmalformed h⟩

theorem Reports.congr {α β : Type} {ready malformed : Prop} {x : Except Raised α} {y : Except Raised β}
    (h : ∀ e, x = .error e ↔ y = .error e) :
    Reports ready malformed x ↔ Reports ready malformed y := by
  constructor
  · rintro ⟨hhandled, hreported⟩
    exact ⟨fun hy => hhandled ((h _).mpr hy), fun hr hm =>
      (hreported hr hm).imp fun msg hx => (h _).mp hx⟩
  · rintro ⟨hhandled, hreported⟩
    exact ⟨fun hx => hhandled ((h _).mp hx), fun hr hm =>
      (hreported hr hm).imp fun msg hy => (h _).mpr hy⟩

theorem numericChat_cases (ref : String) :
    (d.isNumeric (strip ref) = true ∧ Readable d.toDecimals (strip ref) ∧
      ¬ Malformed d.toDecimals ref ∧ ∃ chatId, numericChat d ref = .ok (strip ref, chatId)) ∨
    (d.isNumeric (strip ref) = true ∧ ¬ Readable d.toDecimals (strip ref) ∧
      numericChat d ref = .error (.uncaught "ValueError")) ∨
    (d.isNumeric (strip ref) = false ∧ ∃ msg, numericChat d ref = .error (.error ⟨.request, msg⟩)) := by
  unfold numericChat
  cases hnumeric : d.isNumeric (strip ref) with
  | false => exact .inr (.inr ⟨rfl, _, rfl⟩)
  | true =>
    rcases d.guard_cases (strip_strip ref) hnumeric with ⟨hread, n, hint, hparse⟩ | ⟨hread, hint, -⟩
    · refine .inl ⟨rfl, hread, ?_, ?_⟩
      · rw [← malformed_strip, Malformed, hparse]
        rintro ⟨e, ⟨⟩⟩
      · rw [hint]
        exact ⟨_, rfl⟩
    · refine .inr (.inl ⟨rfl, hread, ?_⟩)
      rw [hint]
      rfl

/-- A list of conversions that each succeed, raise or are refused is reported exactly if none raises
before one is refused. -/
theorem reports_mapM {α β : Type} {f : α → Except Raised β} {l : List α} {go : α → Bool}
    {fine : α → Prop}
    {ready malformed : Prop}
    (hf : ∀ a ∈ l, (go a = true ∧ fine a ∧ ∃ b, f a = .ok b) ∨
      (go a = true ∧ ¬ fine a ∧ f a = .error (.uncaught "ValueError")) ∨
      (go a = false ∧ ∃ msg, f a = .error (.error ⟨.request, msg⟩)))
    (hmalformed : malformed → ∃ a ∈ l, ∃ e, f a = .error e) :
    Reports ready malformed (l.mapM f) ↔ ∀ a ∈ l.takeWhile go, fine a := by
  have hgo : ∀ a ∈ l, go a = false ↔ ∃ e, e ≠ Raised.uncaught "ValueError" ∧ f a = .error e := by
    intro a ha
    rcases hf a ha with ⟨hgo, -, b, hb⟩ | ⟨hgo, -, hb⟩ | ⟨hgo, msg, hb⟩
    · rw [hgo, hb]
      refine iff_of_false Bool.noConfusion ?_
      rintro ⟨e, -, ⟨⟩⟩
    · rw [hgo, hb]
      refine iff_of_false Bool.noConfusion ?_
      rintro ⟨e, hne, heq⟩
      exact hne (Except.error.inj heq).symm
    · rw [hgo, hb]
      exact iff_of_true rfl ⟨.error ⟨.request, msg⟩, nofun, rfl⟩
  have hround : ∀ a ∈ l.takeWhile go, f a ≠ .error (.uncaught "ValueError") ↔ fine a := by
    intro a ha
    have htrue := List.mem_takeWhile_imp ha
    rcases hf a ((List.takeWhile_sublist go).subset ha) with
      ⟨-, hfine, b, hb⟩ | ⟨-, hfine, hb⟩ | ⟨hgo, -⟩
    · rw [hb]
      exact iff_of_true nofun hfine
    · rw [hb]
      exact iff_of_false (fun h => h rfl) hfine
    · rw [htrue] at hgo
      cases hgo
  have hhandled := Except.mapM_ne_error hgo
  constructor
  · intro h a ha
    exact (hround a ha).mp (hhandled.mp h.handled a ha)
  · intro h
    have hne := hhandled.mpr fun a ha => (hround a ha).mpr (h a ha)
    refine ⟨hne, fun _ hm => ?_⟩
    obtain ⟨a, ha, e, he⟩ := hmalformed hm
    obtain ⟨b, hb, e', hfb, hall⟩ := Except.mapM_error_of_mem ha he
    rw [hall] at hne ⊢
    rcases hf b hb with ⟨-, -, c, hx⟩ | ⟨-, -, hx⟩ | ⟨-, msg, hx⟩
    · rw [hfb] at hx
      cases hx
    · rw [hfb] at hx
      cases hx
      exact absurd rfl hne
    · rw [hfb] at hx
      cases hx
      exact ⟨msg, rfl⟩

theorem joinChats_reports : Reports True (∃ ref ∈ refs, Malformed d.toDecimals ref)
    (joinChats d none account refs) ↔
      ∀ ref ∈ refs.takeWhile fun ref => d.isNumeric (strip ref), Readable d.toDecimals (strip ref) := by
  have hmapM : Reports True (∃ ref ∈ refs, Malformed d.toDecimals ref) (refs.mapM (numericChat d)) ↔
      ∀ ref ∈ refs.takeWhile fun ref => d.isNumeric (strip ref), Readable d.toDecimals (strip ref) := by
    refine reports_mapM (fun ref _ => ?_) ?_
    · rcases @numericChat_cases d ref with
        ⟨hgo, hread, -, chatId, hx⟩ | ⟨hgo, hread, hx⟩ | ⟨hgo, msg, hx⟩
      · exact .inl ⟨hgo, hread, _, hx⟩
      · exact .inr (.inl ⟨hgo, hread, hx⟩)
      · exact .inr (.inr ⟨hgo, msg, hx⟩)
    · rintro ⟨ref, hmem, hmalformed⟩
      refine ⟨ref, hmem, ?_⟩
      rcases @numericChat_cases d ref with ⟨-, -, hwell, -⟩ | ⟨-, -, hx⟩ | ⟨-, msg, hx⟩
      · exact absurd hmalformed hwell
      · exact ⟨_, hx⟩
      · exact ⟨_, hx⟩
  refine Iff.trans (Reports.congr fun e => ?_) hmapM
  unfold joinChats
  cases refs.mapM (numericChat d) <;> simp [Except.map]

theorem resolveOrRaise_yields {results : String → Option JoinResult} {label : String} :
    Txn.Yields (Outside.resolveOrRaise results label ref) s
      (match results ref with
        | some (.ok chatId) => .ok chatId
        | some (.failed status) => .error (.error ⟨.request, s!"{label} {ref}: {joinErr status}"⟩)
        | none =>
          let status := joinErr "resolve_failed"
          .error (.error ⟨.request, s!"{label} {ref}: {status}"⟩)) := by
  unfold Outside.resolveOrRaise
  match results ref with
  | some (.ok chatId) => exact .ret
  | some (.failed status) => exact .throw
  | none => exact .throw

theorem joinChatRefs_yields {purpose : ℕ} {scope : Scope} :
    Txn.Yields ((out.resolving d runtime).joinChatRefs purpose scope account refs) s
      (joinChats d runtime account refs) := .emit_bind .lift

theorem Reports.of_value_error {α : Type} {ready malformed : Prop} :
    ¬ Reports ready malformed (.error (.uncaught "ValueError") : Except Raised α) :=
  fun h => h.handled rfl

theorem Reports.of_request {α : Type} {ready malformed : Prop} {msg : String} :
    Reports ready malformed (.error (.error ⟨.request, msg⟩) : Except Raised α) :=
  ⟨nofun, fun _ _ => ⟨msg, rfl⟩⟩

theorem Reports.of_unready {α : Type} {ready malformed : Prop} {e : ApiError} (h : ¬ ready) :
    Reports ready malformed (.error (.error e) : Except Raised α) :=
  ⟨nofun, fun hready => absurd hready h⟩

theorem numericOne_reports {purpose : ℕ} {scope : Scope} {label : String} {ready : Prop}
    (hs : strip ref = ref) :
    ∃ x, Txn.Yields ((out.resolving d none).joinChatRefs purpose scope account [ref] >>= fun results =>
        Outside.resolveOrRaise results label ref) s x ∧
      (Reports ready (Malformed d.toDecimals ref) x ↔
        (d.isNumeric ref = true → Readable d.toDecimals ref)) := by
  have hjoin := @joinChatRefs_yields d none out account s [ref] purpose scope
  have hround := @numericChat_cases d ref
  rw [hs] at hround
  rcases hround with ⟨-, hread, hwell, chatId, hx⟩ | ⟨hgo, hread, hx⟩ | ⟨hgo, msg, hx⟩
  · have hresults : joinChats d none account [ref] =
        .ok fun key => ([(ref, chatId)].lookup key).map .ok := by
      simp [joinChats, hx, Bind.bind, Except.bind, Pure.pure, Except.pure, Except.map]
    rw [hresults] at hjoin
    refine ⟨.ok chatId, hjoin.bind ?_, iff_of_true (.of_ok hwell) fun _ => hread⟩
    have hyields := @resolveOrRaise_yields s ref (fun key => ([(ref, chatId)].lookup key).map .ok) label
    rw [List.lookup_cons_self] at hyields
    exact hyields
  · have hresults : joinChats d none account [ref] = .error (.uncaught "ValueError") := by
      simp [joinChats, hx, Bind.bind, Except.bind, Except.map]
    rw [hresults] at hjoin
    exact ⟨_, hjoin.bind_error, iff_of_false Reports.of_value_error fun h => hread (h hgo)⟩
  · have hresults : joinChats d none account [ref] = .error (.error ⟨.request, msg⟩) := by
      simp [joinChats, hx, Bind.bind, Except.bind, Except.map]
    rw [hresults] at hjoin
    refine ⟨_, hjoin.bind_error, iff_of_true .of_request fun h => ?_⟩
    rw [hgo] at h
    cases h

theorem joinOne_reports {purpose : ℕ} {scope : Scope} {label : String} (hs : strip ref = ref) :
    ∃ x, Txn.Yields
      ((out.resolving d runtime).joinChatRefs purpose scope account [ref] >>= fun results =>
        Outside.resolveOrRaise results label ref) s x ∧
      (Reports (∀ r ∈ runtime, ∃ visit, r.chats account = .ok visit) (Malformed d.toDecimals ref) x ↔
        (runtime = none → d.isNumeric ref = true → Readable d.toDecimals ref)) := by
  cases runtime with
  | none =>
    obtain ⟨x, hyields, hreports⟩ := @numericOne_reports d out account s ref purpose scope label
      (∀ r ∈ (none : Option Runtime), ∃ visit, r.chats account = .ok visit) hs
    exact ⟨x, hyields, hreports.trans ⟨fun h _ => h, fun h => h rfl⟩⟩
  | some r =>
    have hjoin := @joinChatRefs_yields d (some r) out account s [ref] purpose scope
    cases hchats : r.chats account with
    | error e =>
      have hresults : joinChats d (some r) account [ref] = .error (.error e) := by
        simp [joinChats, hchats]
      rw [hresults] at hjoin
      refine ⟨_, hjoin.bind_error, iff_of_true (.of_unready fun hready => ?_) nofun⟩
      obtain ⟨visit, hvisit⟩ := hready r rfl
      rw [hchats] at hvisit
      cases hvisit
    | ok visit =>
      have hresults : joinChats d (some r) account [ref] =
          .ok fun key => if key ∈ [ref] then some (resolveOne d.toDecimals visit key) else none := by
        simp [joinChats, hchats]
      rw [hresults] at hjoin
      have hyields := @resolveOrRaise_yields s ref
        (fun key => if key ∈ [ref] then some (resolveOne d.toDecimals visit key) else none) label
      rw [if_pos (List.mem_singleton.mpr rfl)] at hyields
      refine ⟨_, hjoin.bind hyields, iff_of_true ?_ nofun⟩
      unfold resolveOne Malformed
      cases hparse : parseRef d.toDecimals ref with
      | error e => exact .of_request
      | ok value =>
        dsimp only
        cases visit value with
        | ok chatId => exact .of_ok (by rintro ⟨e, ⟨⟩⟩)
        | failed status => exact .of_request

theorem guarded_reports {ready : Prop} (hs : strip ref = ref) (h : d.isNumeric ref = true) :
    ∃ x, Txn.Yields (orCrash "ValueError" ((out.resolving d runtime).python.parseInt ref)) s x ∧
      (Reports ready (Malformed d.toDecimals ref) x ↔ Readable d.toDecimals ref) := by
  rw [resolving_parseInt]
  rcases d.guard_cases hs h with ⟨hread, n, hint, hparse⟩ | ⟨hread, hint, -⟩
  · rw [hint]
    refine ⟨.ok n, .ret, iff_of_true (.of_ok ?_) hread⟩
    rw [Malformed, hparse]
    rintro ⟨e, ⟨⟩⟩
  · rw [hint]
    exact ⟨_, .throw, iff_of_false Reports.of_value_error hread⟩

theorem reports_bind {α β : Type} {ready malformed : Prop} {m : Req α} {x : Except Raised α}
    {k : α → Req β} {f : α → β} (h : Txn.Yields m s x) (hk : ∀ a, Txn.Yields (k a) s (.ok (f a))) :
    Reports ready malformed ((m >>= k).answer s) ↔ Reports ready malformed x := by
  cases x with
  | ok a =>
    rw [(h.bind (hk a)).answer]
    exact Reports.congr fun e => iff_of_false nofun nofun
  | error e =>
    rw [h.bind_error.answer]
    exact Reports.congr fun e' => by simp

theorem reachable_some {β : Type} {opened : Runtime → TelegramAccount → Except ApiError β} :
    Connects opened runtime (some account) ↔ ∀ r ∈ runtime, ∃ found, opened r account = .ok found := by
  simp [Connects]

theorem askAccount_reports {β : Type} {found : Option TelegramAccount} {msg label : String}
    {scope : Scope}
    {f : ℤ → β} (hs : strip ref = ref) :
    Reports (Connects Runtime.chats runtime found) (Malformed d.toDecimals ref)
      ((orRefuse .notFound msg found >>= fun account =>
        (out.resolving d runtime).joinChatRefs 0 scope account [ref] >>= fun results =>
          Outside.resolveOrRaise results label ref >>= fun chatId => Txn.ret (f chatId) :
            Req β).answer s) ↔
      (runtime = none ∧ found.isSome = true → d.isNumeric ref = true → Readable d.toDecimals ref) := by
  cases found with
  | none =>
    have hmissing : Txn.Yields (orRefuse .notFound msg (none : Option TelegramAccount)) s
        (.error (.error ⟨.notFound, msg⟩)) := .throw
    rw [hmissing.bind_error.answer]
    refine iff_of_true (.of_unready ?_) fun h => ?_
    · rintro ⟨a, ⟨⟩, -⟩
    · cases h.2
  | some account =>
    have hfound : Txn.Yields (orRefuse .notFound msg (some account)) s (.ok account) := .ret
    obtain ⟨x, hyields, hreports⟩ := @joinOne_reports d runtime out account s ref 0 scope label hs
    have hall := @reports_bind s _ _ (Connects Runtime.chats runtime (some account))
      (Malformed d.toDecimals ref) _ _ (fun chatId => Txn.ret (f chatId)) f hyields fun chatId => .ret
    rw [Txn.bind_assoc] at hall
    rw [← reachable_some] at hreports
    refine (hall.trans hreports).trans ?_
    simp

theorem resolveChatId_reports {scope : Scope} {accountId : ℕ} {value : Option String} :
    Reports (Connects Runtime.chats runtime (s.dir.account accountId))
      (∃ ref ∈ value, strip ref ≠ "" ∧ Malformed d.toDecimals ref)
      ((resolveChatId (out.resolving d runtime) scope accountId value).answer s) ↔
    ∀ ref ∈ value, d.isNumeric (strip ref) = true → Readable d.toDecimals (strip ref) := by
  cases value with
  | none => exact iff_of_true (.of_ok (by simp)) (by simp)
  | some ref =>
    have hvalue : (∃ r ∈ some ref, strip r ≠ "" ∧ Malformed d.toDecimals r) ↔
        strip ref ≠ "" ∧ Malformed d.toDecimals (strip ref) := by simp [malformed_strip]
    have hs := strip_strip ref
    rw [hvalue]
    simp only [Option.mem_some_iff, forall_eq']
    unfold resolveChatId
    rw [Option.map_some]
    generalize strip ref = ref at hs
    split
    · rename_i hnone
      cases hnone
    · rename_i hempty
      obtain rfl : ref = "" := Option.some.inj hempty
      exact iff_of_true (.of_ok fun h => h.1 rfl) nofun
    · rename_i ref' hne heq
      obtain rfl : ref = ref' := Option.some.inj heq
      rw [and_iff_right hne]
      split
      · rename_i hnumeric
        obtain ⟨x, hyields, hreports⟩ := @guarded_reports d runtime out s ref
          (Connects Runtime.chats runtime (s.dir.account accountId)) hs hnumeric
        rw [reports_bind hyields fun chatId => .ret, hreports]
        exact ⟨fun h _ => h, fun h => h hnumeric⟩
      · rename_i hnumeric
        have hask := @askAccount_reports d runtime out s ref _ (s.dir.account accountId) "绑定账号不存在"
          "群" scope some hs
        refine iff_of_true (hask.mpr fun _ h => absurd h hnumeric) fun h => absurd h hnumeric

theorem resolveChat_reports {tenantId projectId : ℕ} {chat : String} {accountId : Option ℕ} :
    Reports
      (∀ pk ∈ accountId, Connects Runtime.chats runtime (s.dir.accountByScope tenantId projectId pk))
      (Malformed d.toDecimals chat)
      ((resolveChat (out.resolving d runtime) tenantId projectId chat accountId).answer s) ↔
    ((∀ pk ∈ accountId, runtime = none ∧ (s.dir.accountByScope tenantId projectId pk).isSome = true) →
      d.isNumeric (strip chat) = true → Readable d.toDecimals (strip chat)) := by
  have hs := strip_strip chat
  rw [← malformed_strip]
  unfold resolveChat
  dsimp only
  generalize strip chat = ref at hs
  cases accountId with
  | none =>
    rw [forall_prop_of_true (by simp)]
    dsimp only
    split
    · rename_i hnumeric
      obtain ⟨x, hyields, hreports⟩ := @guarded_reports d runtime out s ref
        (∀ pk ∈ (none : Option ℕ), Connects Runtime.chats runtime
          (s.dir.accountByScope tenantId projectId pk)) hs hnumeric
      rw [reports_bind hyields fun chatId => .ret, hreports]
      exact ⟨fun h _ => h, fun h => h hnumeric⟩
    · rename_i hnumeric
      exact iff_of_true .of_request fun h => absurd h hnumeric
  | some pk =>
    simp only [Option.mem_some_iff, forall_eq']
    exact askAccount_reports hs

def senderId (d : Digits) (found : String → Option ℤ) (token : String) : Except Raised ℤ :=
  if d.isDigits token then
    match intOfText d.toDecimals token with
    | some id => .ok id
    | none => .error (.uncaught "ValueError")
  else
    match found token with
    | some id => .ok id
    | none => .error (.error ⟨.request, s!"发言人 {token} 找不到,请检查用户名"⟩)

theorem senderIds_eq {found : String → Option ℤ} {tokens : List String} :
    senderIds (out.resolving d runtime) found tokens =
      (tokens.mapM (senderId d found)).map List.eraseDups := by
  unfold senderIds
  rw [resolving_parseInt, resolving_isDigit]
  change (tokens.mapM (senderId d found) >>= fun ids => pure ids.eraseDups) = _
  cases tokens.mapM (senderId d found) <;> rfl

theorem senderId_cases {found : String → Option ℤ} (hs : strip ref = ref) :
    (d.isDigits ref = true ∧ Readable d.toDecimals ref ∧ ¬ Malformed d.toDecimals ref ∧
      ∃ id, senderId d found ref = .ok id) ∨
    (d.isDigits ref = true ∧ ¬ Readable d.toDecimals ref ∧
      senderId d found ref = .error (.uncaught "ValueError")) ∨
    (d.isDigits ref = false ∧ ∃ id, found ref = some id ∧ senderId d found ref = .ok id) ∨
    (d.isDigits ref = false ∧ found ref = none ∧
      ∃ msg, senderId d found ref = .error (.error ⟨.request, msg⟩)) := by
  unfold senderId
  cases hdigits : d.isDigits ref with
  | true =>
    rcases d.guard_cases hs (d.isNumeric_of_isDigits hdigits) with
      ⟨hread, n, hint, hparse⟩ | ⟨hread, hint, -⟩
    · refine .inl ⟨rfl, hread, ?_, n, ?_⟩
      · rw [Malformed, hparse]
        rintro ⟨e, ⟨⟩⟩
      · rw [hint]
        rfl
    · refine .inr (.inl ⟨rfl, hread, ?_⟩)
      rw [hint]
      rfl
  | false =>
    cases hfound : found ref with
    | some id => exact .inr (.inr (.inl ⟨rfl, id, rfl, rfl⟩))
    | none => exact .inr (.inr (.inr ⟨rfl, rfl, _, rfl⟩))

theorem mapM_senderId_reports {found : String → Option ℤ} {tokens : List String}
    {ready malformed : Prop}
    (hs : ∀ t ∈ tokens, strip t = t)
    (hmalformed : malformed →
      ∃ t ∈ tokens, Malformed d.toDecimals t ∧ (d.isDigits t = false → found t = none)) :
    Reports ready malformed (tokens.mapM (senderId d found)) ↔
      ∀ t ∈ tokens.takeWhile fun t => d.isDigits t || (found t).isSome,
        d.isDigits t = true → Readable d.toDecimals t := by
  refine reports_mapM (fun t ht => ?_) fun hm => ?_
  · rcases @senderId_cases d t found (hs t ht) with
      ⟨hdigits, hread, -, id, hx⟩ | ⟨hdigits, hread, hx⟩ | ⟨hdigits, id, hfound, hx⟩ |
        ⟨hdigits, hfound, msg, hx⟩
    · exact .inl ⟨by simp [hdigits], fun _ => hread, id, hx⟩
    · exact .inr (.inl ⟨by simp [hdigits], fun h => hread (h hdigits), hx⟩)
    · exact .inl ⟨by simp [hfound], fun h => absurd h (by simp [hdigits]), id, hx⟩
    · exact .inr (.inr ⟨by simp [hdigits, hfound], msg, hx⟩)
  · obtain ⟨t, ht, hbad, hnone⟩ := hmalformed hm
    refine ⟨t, ht, ?_⟩
    rcases @senderId_cases d t found (hs t ht) with
      ⟨-, -, hwell, -⟩ | ⟨-, -, hx⟩ | ⟨hdigits, id, hfound, -⟩ | ⟨-, -, msg, hx⟩
    · exact absurd hbad hwell
    · exact ⟨_, hx⟩
    · rw [hnone hdigits] at hfound
      cases hfound
    · exact ⟨_, hx⟩

theorem strip_of_mem_filterTokens {filters : List (String × Json)} {tokens : List String}
    (h : filterTokens out filters = some tokens) : ∀ t ∈ tokens, strip t = t := by
  have hstripped : ∀ {key l}, senderTokens out filters key = some l → ∀ t ∈ l, strip t = t := by
    intro key l hl t ht
    unfold senderTokens at hl
    dsimp only at hl
    split at hl
    · obtain ⟨items, -, rfl⟩ := Option.map_eq_some_iff.mp hl
      obtain ⟨item, -, rfl⟩ := List.mem_map.mp (List.mem_filter.mp ht).1
      exact strip_strip _
    · cases hl
      cases ht
  obtain ⟨senders, hsenders, hrest⟩ := Option.bind_eq_some_iff.mp h
  obtain ⟨blocked, hblocked, rfl⟩ := Option.map_eq_some_iff.mp hrest
  intro t ht
  exact (List.mem_append.mp ht).elim (hstripped hsenders t) (hstripped hblocked t)

theorem usersOf_eq_none {tokens : List String} {found : String → Option ℤ} {t : String}
    {asked : Option TelegramAccount} (h : usersOf d runtime asked tokens = some found)
    (hname : userRef t = none) : found t = none := by
  unfold usersOf at h
  dsimp only at h
  split at h
  · cases h
    rfl
  · obtain ⟨a, -, hfound⟩ := Option.bind_eq_some_iff.mp h
    unfold resolveUsers at hfound
    split at hfound
    · cases hfound
    · split at hfound
      · cases hfound
        dsimp only
        rw [hname, Option.bind_none, ite_self]
      · cases hfound

theorem resolveNames_yields {rule : CloneRule} {tokens : List String} :
    (∃ found, usersOf d runtime (s.dir.account rule.accountId) tokens = some found ∧
      Txn.Yields (resolveNames (out.resolving d runtime) rule
        (tokens.filter fun t => !(out.resolving d runtime).python.isDigit t)) s (.ok found)) ∨
    (usersOf d runtime (s.dir.account rule.accountId) tokens = none ∧ ∃ e : ApiError,
      Txn.Yields (resolveNames (out.resolving d runtime) rule
        (tokens.filter fun t => !(out.resolving d runtime).python.isDigit t)) s (.error (.error e)) ∧
      ∀ malformed, Reports (Connects Runtime.users runtime (s.dir.account rule.accountId)) malformed
        (.error (.error e) : Except Raised (String → Option ℤ))) := by
  rw [resolving_isDigit]
  unfold usersOf resolveNames
  dsimp only
  split
  · exact .inl ⟨_, rfl, .ret⟩
  · cases haccount : s.dir.account rule.accountId with
    | none =>
      refine .inr ⟨rfl, ⟨.notFound, "规则所属账号不存在"⟩, ?_, fun malformed => .of_unready ?_⟩
      · apply Txn.Yields.read_bind
        rw [haccount]
        exact Txn.Yields.bind_error .throw
      · rintro ⟨a, ⟨⟩, -⟩
    | some a =>
      rw [Option.bind_some]
      generalize (tokens.filter fun t => !d.isDigits t).eraseDups = names
      have hyields : Txn.Yields (Txn.read (fun s : ControlPlane => s.dir.account rule.accountId) >>=
          fun account => orRefuse .notFound "规则所属账号不存在" account >>=
            fun account => (out.resolving d runtime).resolveUserRefs rule.scope account names) s
          (resolveUsers runtime a names) := by
        apply Txn.Yields.read_bind
        rw [haccount]
        exact .bind .ret (.emit_bind .lift)
      match runtime with
      | none =>
        exact .inr ⟨rfl, ⟨.request, "当前环境不支持 @用户名,请填写数字发言人 ID"⟩, hyields,
          fun malformed => .of_request⟩
      | some r =>
        unfold resolveUsers at hyields ⊢
        dsimp only at hyields ⊢
        cases hopened : r.users a with
        | ok find =>
          rw [hopened] at hyields
          exact .inl ⟨_, rfl, hyields⟩
        | error e =>
          rw [hopened] at hyields
          refine .inr ⟨rfl, e, hyields, fun malformed => .of_unready ?_⟩
          rintro ⟨b, hb, hready⟩
          cases hb
          obtain ⟨find, hfind⟩ := hready r rfl
          rw [hopened] at hfind
          cases hfind

theorem senderIds_append {found : String → Option ℤ} {senders blocked : List String}
    {f : List ℤ → List ℤ → Option (List (String × Json))} :
    ∃ x, Txn.Yields (Txn.lift (senderIds (out.resolving d runtime) found senders) >>= fun ids =>
        Txn.lift (senderIds (out.resolving d runtime) found blocked) >>= fun blockedIds =>
          (Txn.ret (f ids blockedIds) : Req (Option (List (String × Json))))) s x ∧
      ∀ e, x = .error e ↔ (senders ++ blocked).mapM (senderId d found) = .error e := by
  rw [senderIds_eq, senderIds_eq, List.mapM_append]
  cases senders.mapM (senderId d found) with
  | error e => exact ⟨.error e, Txn.Yields.bind_error .throw, fun e' => by simp [Bind.bind, Except.bind]⟩
  | ok ids =>
    cases blocked.mapM (senderId d found) with
    | error e =>
      exact ⟨.error e, .bind .ret (Txn.Yields.bind_error .throw),
        fun e' => by simp [Bind.bind, Except.bind]⟩
    | ok blockedIds => exact ⟨_, .bind .ret (.bind .ret .ret), fun e' => iff_of_false nofun nofun⟩

theorem orCrash_of_none {α : Type} {exception : String} {o : Option α} (h : o = none) :
    Txn.Yields (orCrash exception o) s (.error (.uncaught exception)) := by
  rw [h]
  exact .throw

theorem orCrash_of_some {α : Type} {exception : String} {o : Option α} {a : α} (h : o = some a) :
    Txn.Yields (orCrash exception o) s (.ok a) := by
  rw [h]
  exact .ret

theorem Reports.of_type_error {α : Type} {ready malformed : Prop} (h : ¬ malformed) :
    Reports ready malformed (.error (.uncaught "TypeError") : Except Raised α) :=
  ⟨by simp, fun _ hmalformed => absurd hmalformed h⟩

theorem normalizeFilters_of_none {rule : CloneRule} {entry : String × Json} {f : List (String × Json)}
    (h : filterTokens out (entry :: f) = none) :
    Txn.Yields (normalizeFilters (out.resolving d runtime) rule (some (entry :: f))) s
      (.error (.uncaught "TypeError")) := by
  rcases Option.bind_eq_none_iff.mp h with hrest
  unfold normalizeFilters
  rw [senderTokens_resolving]
  cases hsenders : senderTokens out (entry :: f) "sender_user_ids" with
  | none => exact Txn.Yields.bind_error (orCrash_of_none hsenders)
  | some senders =>
    refine .bind (orCrash_of_some hsenders) ?_
    have hblocked := Option.map_eq_none_iff.mp (hrest senders hsenders)
    exact Txn.Yields.bind_error (orCrash_of_none hblocked)

theorem normalizeFilters_of_some {rule : CloneRule} {entry : String × Json} {f : List (String × Json)}
    {tokens : List String} (h : filterTokens out (entry :: f) = some tokens) :
    (∃ found x, usersOf d runtime (s.dir.account rule.accountId) tokens = some found ∧
      Txn.Yields (normalizeFilters (out.resolving d runtime) rule (some (entry :: f))) s x ∧
      ∀ e, x = .error e ↔ tokens.mapM (senderId d found) = .error e) ∨
    (usersOf d runtime (s.dir.account rule.accountId) tokens = none ∧ ∃ e : ApiError,
      Txn.Yields (normalizeFilters (out.resolving d runtime) rule (some (entry :: f))) s
        (.error (.error e)) ∧
      ∀ malformed, Reports (Connects Runtime.users runtime (s.dir.account rule.accountId)) malformed
        (.error (.error e) : Except Raised (Option (List (String × Json))))) := by
  obtain ⟨senders, hsenders, hrest⟩ := Option.bind_eq_some_iff.mp h
  obtain ⟨blocked, hblocked, rfl⟩ := Option.map_eq_some_iff.mp hrest
  unfold normalizeFilters
  rw [senderTokens_resolving]
  rcases @resolveNames_yields d runtime out s rule (senders ++ blocked) with
    ⟨found, hfound, hyields⟩ | ⟨hfound, e, hyields, hreports⟩
  · obtain ⟨x, hids, herrors⟩ := @senderIds_append d runtime out s found senders blocked
      fun ids blockedIds => some (withSenders (out.resolving d runtime) "blocked_sender_ids" blocked
        blockedIds (withSenders (out.resolving d runtime) "sender_user_ids" senders ids (entry :: f)))
    refine .inl ⟨found, x, hfound, ?_, herrors⟩
    exact .bind (orCrash_of_some hsenders) (.bind (orCrash_of_some hblocked) (.bind hyields hids))
  · refine .inr ⟨hfound, e, ?_, fun malformed => ?_⟩
    · exact .bind (orCrash_of_some hsenders) (.bind (orCrash_of_some hblocked) hyields.bind_error)
    · exact (Reports.congr fun e' => by simp).mp (hreports malformed)

theorem normalizeFilters_reports {rule : CloneRule} {filters : Option (List (String × Json))} :
    Reports (Connects Runtime.users runtime (s.dir.account rule.accountId))
      (∃ f ∈ filters, ∃ tokens, filterTokens out f = some tokens ∧
        ∃ t ∈ tokens, Malformed d.toDecimals t ∧ userRef t = none)
      ((normalizeFilters (out.resolving d runtime) rule filters).answer s) ↔
    ∀ f ∈ filters, ∀ tokens, filterTokens out f = some tokens →
      ∀ found, usersOf d runtime (s.dir.account rule.accountId) tokens = some found →
        ∀ t ∈ tokens.takeWhile fun t => d.isDigits t || (found t).isSome,
          d.isDigits t = true → Readable d.toDecimals t := by
  match filters with
  | none => exact iff_of_true (.of_ok (by simp)) (by simp)
  | some [] =>
    have htokens : filterTokens out [] = some [] := rfl
    refine iff_of_true (.of_ok ?_) ?_
    · rintro ⟨f, ⟨⟩, tokens, htokens', t, ht, -⟩
      rw [htokens] at htokens'
      cases htokens'
      cases ht
    · rintro f ⟨⟩ tokens htokens' found - t ht
      rw [htokens] at htokens'
      cases htokens'
      cases ht
  | some (entry :: f) =>
    simp only [Option.mem_some_iff, exists_eq_left', forall_eq']
    cases htokens : filterTokens out (entry :: f) with
    | none =>
      rw [(normalizeFilters_of_none htokens).answer]
      exact iff_of_true (.of_type_error (by simp)) (by simp)
    | some tokens =>
      simp only [Option.some.injEq, exists_eq_left', forall_eq']
      rcases @normalizeFilters_of_some d runtime out s rule entry f tokens htokens with
        ⟨found, x, hfound, hyields, herrors⟩ | ⟨hfound, e, hyields, hreports⟩
      · rw [hyields.answer, hfound]
        simp only [Option.some.injEq, forall_eq']
        refine (Reports.congr herrors).trans ?_
        refine mapM_senderId_reports (strip_of_mem_filterTokens htokens) ?_
        rintro ⟨t, ht, hmalformed, hname⟩
        exact ⟨t, ht, hmalformed, fun _ => usersOf_eq_none hfound hname⟩
      · rw [hyields.answer, hfound]
        exact iff_of_true (hreports _) (by simp)

end Sites

/-- After a guard `int` succeeds and gives what `parse_ref` gives exactly if the text is readable, and
where the guards stand all is reported exactly if what they let through is readable, up to the first
reference that is refused. -/
theorem digit_guards_iff (d : Digits) (runtime : Option Runtime) (out : Outside) (s : ControlPlane) :
    (∀ ref, d.isNumeric (strip ref) = true ∨ d.isDigits (strip ref) = true →
      (Converts d.toDecimals (strip ref) ↔ Readable d.toDecimals (strip ref))) ∧
    (∀ account refs, Reports True (∃ ref ∈ refs, Malformed d.toDecimals ref)
        (joinChats d none account refs) ↔
      ∀ ref ∈ refs.takeWhile fun ref => d.isNumeric (strip ref),
        Readable d.toDecimals (strip ref)) ∧
    (∀ scope accountId value, Reports (Connects Runtime.chats runtime (s.dir.account accountId))
        (∃ ref ∈ value, strip ref ≠ "" ∧ Malformed d.toDecimals ref)
        ((resolveChatId (out.resolving d runtime) scope accountId value).answer s) ↔
      ∀ ref ∈ value, d.isNumeric (strip ref) = true → Readable d.toDecimals (strip ref)) ∧
    (∀ tenantId projectId chat accountId,
      Reports (∀ pk ∈ accountId,
          Connects Runtime.chats runtime (s.dir.accountByScope tenantId projectId pk))
        (Malformed d.toDecimals chat)
        ((resolveChat (out.resolving d runtime) tenantId projectId chat accountId).answer s) ↔
      ((∀ pk ∈ accountId, runtime = none ∧ (s.dir.accountByScope tenantId projectId pk).isSome = true) →
        d.isNumeric (strip chat) = true → Readable d.toDecimals (strip chat))) ∧
    ∀ rule filters, Reports (Connects Runtime.users runtime (s.dir.account rule.accountId))
        (∃ f ∈ filters, ∃ tokens, filterTokens out f = some tokens ∧
          ∃ t ∈ tokens, Malformed d.toDecimals t ∧ userRef t = none)
        ((normalizeFilters (out.resolving d runtime) rule filters).answer s) ↔
      ∀ f ∈ filters, ∀ tokens, filterTokens out f = some tokens →
        ∀ found, usersOf d runtime (s.dir.account rule.accountId) tokens = some found →
          ∀ t ∈ tokens.takeWhile fun t => d.isDigits t || (found t).isSome,
            d.isDigits t = true → Readable d.toDecimals t := by
  refine ⟨fun ref h => ?_, fun account refs => joinChats_reports, fun scope accountId value =>
    resolveChatId_reports, fun tenantId projectId chat accountId => resolveChat_reports,
    fun rule filters => normalizeFilters_reports⟩
  exact d.converts_iff (strip_strip ref) (h.elim id d.isNumeric_of_isDigits)

/-- The decimal digits of ASCII, and three superscripts. -/
def superscripts : Digits where
  toDecimals := asciiDecimals
  digit c := c.isDigit || c ∈ ['¹', '²', '³']
  digit_of_decimal c hc := by
    unfold isDecimal asciiDecimals at hc
    dsimp only at hc
    split at hc
    · rename_i hdigit
      simp [hdigit]
    · cases hc
  digit_ascii c hc := by
    have hne : c ∉ ['¹', '²', '³'] := by
      intro hmem
      simp only [List.mem_cons, List.not_mem_nil, or_false] at hmem
      rcases hmem with rfl | rfl | rfl <;> revert hc <;> decide
    simp [hne]

/-- The number of a channel. -/
theorem digit_guards_iff_chat : Converts superscripts.toDecimals (strip " -1001234567890 ") :=
  ((digit_guards_iff superscripts none ControlPlane.silence
    (ControlPlane.ofDirectory ControlPlane.memberOfFirst)).1 " -1001234567890 "
    (.inl (by decide +kernel))).mpr
      ⟨by decide +kernel, List.forall_iff_forall_mem.mp (by decide +kernel), by decide +kernel⟩

/-- A second sign and a superscript pass the guards and make `int` raise. -/
theorem second_sign_raises :
    superscripts.isNumeric "--5" = true ∧ intOfText superscripts.toDecimals "--5" = none ∧
      parseRef superscripts.toDecimals "--5" = .error "无法识别的群标识: --5" ∧
      (resolveChat (ControlPlane.silence.resolving superscripts none) 1 1 "--5" none).answer
        (ControlPlane.ofDirectory ControlPlane.memberOfFirst) =
        .error (.uncaught "ValueError") ∧
      superscripts.isDigits "²" = true ∧ intOfText superscripts.toDecimals "²" = none := by
  decide +kernel

end TgPlatform
