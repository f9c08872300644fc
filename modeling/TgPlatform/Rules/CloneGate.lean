import Mathlib.Data.List.DropRight
import TgPlatform.Ai.Texts
import TgPlatform.Control.AiScope
import TgPlatform.Rules.Reports

/-! # The switches of the clone transform

A rule has one switch for its advertisements and one for rewriting. The answer
of the model is read leniently: fenced, or embedded in other text. The keywords
and the model's verdict are obeyed whatever the first switch says, and the
model's text is taken whatever the second one says.
-/

namespace TgPlatform

/-! ## Reading the model's reply -/

def fence : List Char := "```".toList

/-- The reply without the opening fence: `^```[a-zA-Z]*\s*`. -/
def openFence (s : List Char) : List Char :=
  ((s.drop fence.length).dropWhile Char.isAlpha).dropWhile isSpace

/-- The reply without the closing fence: `\s*```$`. -/
def closeFence (s : List Char) : List Char :=
  if fence <:+ s then ((s.take (s.length - fence.length)).reverse.dropWhile isSpace).reverse else s

def unfence (s : List Char) : List Char := if fence <+: s then closeFence (openFence s) else s

/-- From the first opening brace to the last closing one: `\{.*\}`. -/
def braced (s : List Char) : Option (List Char) :=
  let body := ((s.dropWhile fun c => c ≠ '{').reverse.dropWhile fun c => c ≠ '}').reverse
  if body = [] then none else some body

def dictOnly (v : Json) : Option Json := if v.isDict then some v else none

section Parsing

-- `loads` is `json.loads` of a string.
variable (loads : String → Except LoadsError Json)

/-- `_parse_transform`. -/
def parseTransform (reply : String) : Except LoadsError (Option Json) :=
  let s := unfence (strip reply).toList
  match loads (String.ofList s) with
  | .ok v => .ok (dictOnly v)
  | .error .other => .error .other
  | .error .decode =>
    match braced s with
    | none => .ok none
    | some t =>
      match loads (String.ofList t) with
      | .ok v => .ok (dictOnly v)
      | .error .other => .error .other
      | .error .decode => .ok none

variable {loads} {reply : String} {payload : Json}

theorem isDict_of_dictOnly {v : Json} (h : dictOnly v = some payload) : payload.isDict := by
  unfold dictOnly at h
  split at h
  · cases h
    assumption
  · cases h

theorem isDict_of_parseTransform (h : parseTransform loads reply = .ok (some payload)) :
    payload.isDict := by
  unfold parseTransform at h
  dsimp only at h
  split at h
  · exact isDict_of_dictOnly (Except.ok.inj h)
  · cases h
  · split at h
    · cases h
    · split at h
      · exact isDict_of_dictOnly (Except.ok.inj h)
      · cases h
      · cases h

/-- The braces of a body are found in any text around it that has none. -/
theorem braced_append {before after body : List Char} (hbefore : '{' ∉ before) (hafter : '}' ∉ after) :
    braced (before ++ '{' :: body ++ '}' :: after) = some ('{' :: body ++ ['}']) := by
  have hopen : (before ++ '{' :: body ++ '}' :: after).dropWhile (fun c => c ≠ '{') =
      '{' :: body ++ '}' :: after := by
    rw [List.append_assoc, List.dropWhile_append_of_pos]
    · simp
    · intro c hc
      have hne : c ≠ '{' := fun h => hbefore (h ▸ hc)
      simpa using hne
  have hclose : ('{' :: body ++ '}' :: after).reverse.dropWhile (fun c => c ≠ '}') =
      ('{' :: body ++ ['}']).reverse := by
    rw [show '{' :: body ++ '}' :: after = '{' :: body ++ ['}'] ++ after by simp, List.reverse_append,
      List.dropWhile_append_of_pos]
    · simp
    · intro c hc
      have hne : c ≠ '}' := fun h => hafter (h ▸ List.mem_reverse.mp hc)
      simpa using hne
  unfold braced
  simp only [hopen, hclose, List.reverse_reverse]
  simp

theorem not_isAlpha_of_isSpace {c : Char} (h : isSpace c = true) : c.isAlpha = false := by
  have hc := of_decide_eq_true h
  simp only [List.mem_cons, List.not_mem_nil, or_false] at hc
  refine Bool.eq_false_iff.mpr fun halpha => ?_
  unfold Char.isAlpha Char.isUpper Char.isLower at halpha
  simp only [Bool.or_eq_true, Bool.and_eq_true, decide_eq_true_eq, UInt32.le_iff_toNat_le,
    ge_iff_le] at halpha
  change (65 ≤ c.toNat ∧ c.toNat ≤ 90) ∨ (97 ≤ c.toNat ∧ c.toNat ≤ 122) at halpha
  omega

theorem dropWhile_append_cons {α : Type} {p : α → Bool} {l rest : List α} {a : α} (hl : ∀ x ∈ l, p x)
    (ha : p a = false) : (l ++ a :: rest).dropWhile p = a :: rest := by
  rw [List.dropWhile_append_of_pos hl, List.dropWhile_cons_of_neg (by simp [ha])]

/-- A fenced body is found, whatever the language that the fence names. -/
theorem unfence_fenced {language before body after : List Char} {c d : Char}
    (hlanguage : ∀ x ∈ language, x.isAlpha) (hbefore : ∀ x ∈ before, isSpace x)
    (hafter : ∀ x ∈ after, isSpace x) (hc : c.isAlpha = false ∧ isSpace c = false)
    (hd : isSpace d = false) :
    unfence (fence ++ (language ++ (before ++ c :: (body ++ d :: (after ++ fence))))) =
      c :: (body ++ [d]) := by
  have hopen : openFence (fence ++ (language ++ (before ++ c :: (body ++ d :: (after ++ fence))))) =
      c :: (body ++ d :: (after ++ fence)) := by
    unfold openFence
    rw [List.drop_left, List.dropWhile_append_of_pos hlanguage]
    cases before with
    | nil =>
      rw [List.nil_append, List.dropWhile_cons_of_neg (by simp [hc.1]),
        List.dropWhile_cons_of_neg (by simp [hc.2])]
    | cons x before =>
      rw [List.cons_append, List.dropWhile_cons_of_neg (by
        simp [not_isAlpha_of_isSpace (hbefore x List.mem_cons_self)]), ← List.cons_append]
      exact dropWhile_append_cons hbefore hc.2
  have hassoc : c :: (body ++ d :: (after ++ fence)) = (c :: (body ++ d :: after)) ++ fence := by simp
  unfold unfence
  rw [if_pos (List.prefix_append ..), hopen, hassoc]
  unfold closeFence
  rw [if_pos (List.suffix_append ..), List.length_append, Nat.add_sub_cancel, List.take_left,
    show c :: (body ++ d :: after) = c :: body ++ (d :: after) by simp, List.reverse_append,
    List.reverse_cons,
    List.append_assoc, List.singleton_append,
    dropWhile_append_cons (fun x hx => hafter x (List.mem_reverse.mp hx)) hd]
  simp

theorem parseTransform_fenced {language before body after : List Char} {c d : Char} {v : Json}
    (hlanguage : ∀ x ∈ language, x.isAlpha) (hbefore : ∀ x ∈ before, isSpace x)
    (hafter : ∀ x ∈ after, isSpace x) (hc : c.isAlpha = false ∧ isSpace c = false)
    (hd : isSpace d = false)
    (hreply : (strip reply).toList =
      fence ++ (language ++ (before ++ c :: (body ++ d :: (after ++ fence)))))
    (hloads : loads (String.ofList (c :: (body ++ [d]))) = .ok v) :
    parseTransform loads reply = .ok (dictOnly v) := by
  unfold parseTransform
  rw [hreply, unfence_fenced hlanguage hbefore hafter hc hd]
  simp only [hloads]

theorem parseTransform_embedded {before body after : List Char} {v : Json} (hbefore : '{' ∉ before)
    (hafter : '}' ∉ after) (hfence : ¬fence <+: (strip reply).toList)
    (hreply : (strip reply).toList = before ++ '{' :: body ++ '}' :: after)
    (hwhole : loads (String.ofList (before ++ '{' :: body ++ '}' :: after)) = .error .decode)
    (hloads : loads (String.ofList ('{' :: body ++ ['}'])) = .ok v) :
    parseTransform loads reply = .ok (dictOnly v) := by
  unfold parseTransform unfence
  rw [if_neg hfence]
  simp only [hreply, hwhole, braced_append hbefore hafter, hloads]

end Parsing

/-! ## What the transform answers -/

def payloadText (repr : Json → String) (payload : Json) : String :=
  let text := payload.field "text" .null
  strip (if text.truthy then text.toStr repr else "")

theorem strip_payloadText (repr : Json → String) (payload : Json) :
    strip (payloadText repr payload) = payloadText repr payload := strip_strip _

section Gate

variable (out : Outside) (loads : String → Except LoadsError Json)
  (complete : CloneRule → AiGroup → String → Except String String)

def Outside.asking : Outside :=
  { out with
    transform := fun rule group text => do
      let reply ← complete rule group text
      (parseTransform loads reply).mapError fun _ => "RecursionError" }

/-- The group whose model a rule uses, if it has a key and a model. -/
def ControlPlane.cloneProvider (s : ControlPlane) (ruleId : ℕ) (rule : CloneRule) : Option AiGroup :=
  (s.cloneAiGroup ruleId rule).filter fun g =>
    (truthy (decrypted out g.providerKeyEnc)).isSome && (truthy g.providerModel).isSome

structure ModelReplies (s : ControlPlane) (ruleId : ℕ) (rule : CloneRule) (text : String)
    (payload : Json) :
    Prop where
  noKeyword : hitsKeyword out rule text = false
  needed : rule.adBlock = "ai" ∨ rule.aiRewrite ≠ "" ∧ rule.aiRewrite ≠ "off"
  replied : ∃ group reply, s.cloneProvider out ruleId rule = some group ∧
    complete rule group text = .ok reply ∧ parseTransform loads reply = .ok (some payload)

structure ObeysSwitches (s : ControlPlane) (ruleId : ℕ) (text : String) (r : Transformed) : Prop where
  dropped : r.action = "drop" → ∀ rule, s.rule ruleId = some rule → rule.adBlock ≠ "off"
  sent : r.action = "send" → strip text ≠ "" → strip r.text ≠ ""
  unchanged : r.action = "send" → ∀ rule, s.rule ruleId = some rule → rule.aiRewrite = "off" →
    r.text = text

inductive GateEnds (s : ControlPlane) (ruleId : ℕ) (text : String) : Transformed → Prop
  | unknown (hrule : s.rule ruleId = none) : GateEnds s ruleId text ⟨"send", text, "rule_not_found"⟩
  | keyword {rule : CloneRule} (hrule : s.rule ruleId = some rule)
      (hkeyword : hitsKeyword out rule text = true) :
      GateEnds s ruleId text ⟨"drop", "", "keyword"⟩
  | unasked {rule : CloneRule} (hrule : s.rule ruleId = some rule)
      (hkeyword : hitsKeyword out rule text = false)
      (hnone : ∀ payload, ¬ModelReplies out loads complete s ruleId rule text payload)
        (reason : String) :
      GateEnds s ruleId text ⟨"send", text, reason⟩
  | refused {rule : CloneRule} {payload : Json} (hrule : s.rule ruleId = some rule)
      (hreplies : ModelReplies out loads complete s ruleId rule text payload)
      (hdrop : (payload.field "drop" .null).truthy = true) (reason : String) :
      GateEnds s ruleId text ⟨"drop", "", reason⟩
  | rewritten {rule : CloneRule} {payload : Json} (hrule : s.rule ruleId = some rule)
      (hreplies : ModelReplies out loads complete s ruleId rule text payload)
      (hdrop : (payload.field "drop" .null).truthy = false) :
      GateEnds s ruleId text ⟨"send", if payloadText out.python.repr payload = "" then text else
        payloadText out.python.repr payload, ""⟩

variable {out} {loads} {complete} {s : ControlPlane} {ruleId : ℕ} {rule : CloneRule} {text : String}
  {payload payload' : Json} {r : Transformed}

theorem ModelReplies.unique (h : ModelReplies out loads complete s ruleId rule text payload)
    (h' : ModelReplies out loads complete s ruleId rule text payload') : payload = payload' := by
  obtain ⟨group, reply, hgroup, hreply, hpayload⟩ := h.replied
  obtain ⟨group', reply', hgroup', hreply', hpayload'⟩ := h'.replied
  obtain rfl := Option.some.inj (hgroup.symm.trans hgroup')
  obtain rfl := Except.ok.inj (hreply.symm.trans hreply')
  exact Option.some.inj (Except.ok.inj (hpayload.symm.trans hpayload'))

section Asking

variable {group : AiGroup} {reply err : String} {e : LoadsError} {parsed : Option Json}

theorem asking_of_error (h : complete rule group text = .error err) :
    (out.asking loads complete).transform rule group text = .error err := by
  simp [Outside.asking, h, bind, Except.bind]

theorem asking_of_unreadable (h : complete rule group text = .ok reply)
    (he : parseTransform loads reply = .error e) :
    (out.asking loads complete).transform rule group text = .error "RecursionError" := by
  simp [Outside.asking, h, he, bind, Except.bind, Except.mapError]

theorem asking_of_parsed (h : complete rule group text = .ok reply)
    (hp : parseTransform loads reply = .ok parsed) :
    (out.asking loads complete).transform rule group text = .ok parsed := by
  simp [Outside.asking, h, hp, bind, Except.bind, Except.mapError]

end Asking

theorem asksModel_iff : (!(decide (rule.adBlock = "ai") ||
    (decide (rule.aiRewrite ≠ "") && decide (rule.aiRewrite ≠ "off")))) = false ↔
      rule.adBlock = "ai" ∨ rule.aiRewrite ≠ "" ∧ rule.aiRewrite ≠ "off" := by
  simp only [Bool.not_eq_false', Bool.or_eq_true, Bool.and_eq_true, decide_eq_true_eq]

theorem cloneTransform_ends :
    Txn.Post (cloneTransform (out.asking loads complete) ruleId text) s (fun _ => True)
      fun r _ => GateEnds out loads complete s ruleId text r := by
  refine .bind (.read ?_)
  cases hrule : s.rule ruleId with
  | none => exact .ret (.unknown hrule)
  | some rule =>
    dsimp only
    split
    · rename_i hkeyword
      exact .ret (.keyword hrule hkeyword)
    · rename_i hkeyword
      have hkeyword : hitsKeyword out rule text = false := Bool.eq_false_of_not_eq_true hkeyword
      split
      · rename_i hneeded
        refine .ret (.unasked hrule hkeyword (fun payload hreplies => ?_) "")
        rw [asksModel_iff.mpr hreplies.needed] at hneeded
        exact absurd hneeded Bool.false_ne_true
      · rename_i hneeded
        have hneeded := asksModel_iff.mp (Bool.eq_false_of_not_eq_true hneeded)
        refine .bind (.read ?_)
        have hprovider : (s.cloneAiGroup ruleId rule).filter (fun g =>
            (truthy (decrypted (out.asking loads complete) g.providerKeyEnc)).isSome &&
              (truthy g.providerModel).isSome) = s.cloneProvider out ruleId rule := rfl
        rw [hprovider]
        cases hgroup : s.cloneProvider out ruleId rule with
        | none =>
          refine .ret (.unasked hrule hkeyword (fun payload hreplies => ?_) "no_provider")
          obtain ⟨group, _, hsome, _⟩ := hreplies.replied
          rw [hgroup] at hsome
          cases hsome
        | some group =>
          refine .bind (.emit trivial ?_)
          have hunasked : ∀ payload, ModelReplies out loads complete s ruleId rule text payload →
              ∃ reply, complete rule group text = .ok reply ∧
                parseTransform loads reply = .ok (some payload) := by
            intro payload hreplies
            obtain ⟨group', reply, hsome, hreply, hpayload⟩ := hreplies.replied
            obtain rfl := Option.some.inj (hgroup.symm.trans hsome)
            exact ⟨reply, hreply, hpayload⟩
          cases hreply : complete rule group text with
          | error err =>
            rw [asking_of_error hreply]
            exact .throw
          | ok reply =>
            cases hparse : parseTransform loads reply with
            | error err =>
              rw [asking_of_unreadable hreply hparse]
              exact .throw
            | ok parsed =>
              rw [asking_of_parsed hreply hparse]
              cases parsed with
              | none =>
                refine .ret (.unasked hrule hkeyword (fun payload hreplies => ?_) "unparseable")
                obtain ⟨reply', hreply', hpayload⟩ := hunasked payload hreplies
                obtain rfl := Except.ok.inj (hreply.symm.trans hreply')
                cases hparse.symm.trans hpayload
              | some payload =>
                have hreplies : ModelReplies out loads complete s ruleId rule text payload :=
                  ⟨hkeyword, hneeded, group, reply, hgroup, hreply, hparse⟩
                dsimp only
                split
                · rename_i hdrop
                  exact .ret (.refused hrule hreplies hdrop _)
                · rename_i hdrop
                  exact .ret (.rewritten hrule hreplies (Bool.eq_false_of_not_eq_true hdrop))

theorem obeysSwitches_drop {reason : String} : ObeysSwitches s ruleId text ⟨"drop", "", reason⟩ ↔
    ∀ rule, s.rule ruleId = some rule → rule.adBlock ≠ "off" := by
  have hne : "drop" ≠ "send" := by decide
  exact ⟨fun h => h.dropped rfl, fun h => ⟨fun _ => h, fun h => absurd h hne, fun h => absurd h hne⟩⟩

theorem obeysSwitches_send {newText reason : String} :
    ObeysSwitches s ruleId text ⟨"send", newText, reason⟩ ↔
    (strip text ≠ "" → strip newText ≠ "") ∧
      ∀ rule, s.rule ruleId = some rule → rule.aiRewrite = "off" → newText = text := by
  have hne : "send" ≠ "drop" := by decide
  exact ⟨fun h => ⟨h.sent rfl, h.unchanged rfl⟩,
    fun h => ⟨fun h => absurd h hne, fun _ => h.1, fun _ => h.2⟩⟩

theorem obeysSwitches_same {reason : String} : ObeysSwitches s ruleId text ⟨"send", text, reason⟩ :=
  obeysSwitches_send.mpr ⟨id, fun _ _ _ => rfl⟩

/-- An answer of the transform obeys the rule's switches if and only if, where the first is off, no
keyword occurs and the model has no verdict, and where the second is off, the model has no other text. -/
theorem switches_obeyed_iff (out : Outside) (loads : String → Except LoadsError Json)
    (complete : CloneRule → AiGroup → String → Except String String) (s : ControlPlane) (ruleId : ℕ)
    (text : String) (r : Transformed)
    (h : (cloneTransform (out.asking loads complete) ruleId text).answer s = .ok r) :
    ObeysSwitches s ruleId text r ↔ ∀ rule, s.rule ruleId = some rule →
      (rule.adBlock = "off" → hitsKeyword out rule text = false ∧
        ∀ payload, ModelReplies out loads complete s ruleId rule text payload →
          (payload.field "drop" .null).truthy = false) ∧
      (rule.aiRewrite = "off" →
        ∀ payload, ModelReplies out loads complete s ruleId rule text payload →
          (payload.field "drop" .null).truthy = false →
            payloadText out.python.repr payload = "" ∨ payloadText out.python.repr payload = text) := by
  have hends := cloneTransform_ends.answer h
  have hsame : ∀ {rule rule'}, s.rule ruleId = some rule → s.rule ruleId = some rule' → rule' = rule :=
    fun hrule hrule' => Option.some.inj (hrule'.symm.trans hrule)
  cases hends with
  | unknown hrule =>
    refine ⟨fun _ rule hsome => ?_, fun _ => obeysSwitches_same⟩
    rw [hrule] at hsome
    cases hsome
  | keyword hrule hkeyword =>
    rw [obeysSwitches_drop]
    constructor
    · intro hdrops rule' hrule'
      obtain rfl := hsame hrule hrule'
      refine ⟨fun hoff => absurd hoff (hdrops _ hrule), fun _ payload hreplies => ?_⟩
      rw [hreplies.noKeyword] at hkeyword
      cases hkeyword
    · intro hcond rule' hrule' hoff
      obtain rfl := hsame hrule hrule'
      rw [((hcond _ hrule).1 hoff).1] at hkeyword
      cases hkeyword
  | unasked hrule hkeyword hnone =>
    refine ⟨fun _ rule' hrule' => ?_, fun _ => obeysSwitches_same⟩
    obtain rfl := hsame hrule hrule'
    exact ⟨fun _ => ⟨hkeyword, fun payload hreplies => absurd hreplies (hnone payload)⟩,
      fun _ payload hreplies => absurd hreplies (hnone payload)⟩
  | refused hrule hreplies hdrop =>
    rw [obeysSwitches_drop]
    constructor
    · intro hdrops rule' hrule'
      obtain rfl := hsame hrule hrule'
      refine ⟨fun hoff => absurd hoff (hdrops _ hrule), fun _ payload' hreplies' hnot => ?_⟩
      rw [hreplies.unique hreplies', hnot] at hdrop
      cases hdrop
    · intro hcond rule' hrule' hoff
      obtain rfl := hsame hrule hrule'
      rw [((hcond _ hrule).1 hoff).2 _ hreplies] at hdrop
      cases hdrop
  | rewritten hrule hreplies hdrop =>
    rw [obeysSwitches_send]
    constructor
    · rintro ⟨-, hunchanged⟩ rule' hrule'
      obtain rfl := hsame hrule hrule'
      constructor
      · intro _
        refine ⟨hreplies.noKeyword, fun payload' hreplies' => ?_⟩
        rw [← hreplies.unique hreplies']
        exact hdrop
      · intro hoff payload' hreplies' _
        rw [← hreplies.unique hreplies']
        rw [or_iff_not_imp_left]
        intro hempty
        rw [← hunchanged _ hrule hoff, if_neg hempty]
    · intro hcond
      constructor
      · intro hne
        split
        · exact hne
        · rename_i hempty
          rwa [strip_payloadText]
      · intro rule' hrule' hoff
        obtain rfl := hsame hrule hrule'
        split
        · rfl
        · rename_i hempty
          exact ((hcond _ hrule).2 hoff _ hreplies hdrop).resolve_left hempty

end Gate

/-- A rule that drops its advertisements by the model, and has the rest rewritten. -/
def rewriting : CloneRule where
  uuid := "r"
  tenantId := 1
  projectId := 1
  accountId := 1
  name := "r"
  aiRewrite := "light"
  adBlock := "ai"
  aiGroupId := some 0

def gatedBy (rule : CloneRule) : ControlPlane where
  __ := ControlPlane.ofDirectory ControlPlane.memberOfFirst
  rules := Slots.add .empty rule
  groups := Slots.add .empty {
    tenantId := 1, projectId := 1, name := "g", chatId := 7, providerModel := some "m"
    providerKeyEnc := some "k" }

/-- `json.loads` of one text. -/
def loadsGreeting (s : String) : Except LoadsError Json :=
  if s = "\x7b\"drop\": false, \"text\": \"hi\"\x7d" then
    .ok (.dict [("drop", .bool false), ("text", .str "hi")])
  else .error .decode

/-- A fenced reply of the model is sent in place of the text. -/
theorem fenced_reply_sent : ObeysSwitches (gatedBy rewriting) 0 "hello" ⟨"send", "hi", ""⟩ := by
  refine (switches_obeyed_iff ControlPlane.silence loadsGreeting
    (fun _ _ _ => .ok "```json\n\x7b\"drop\": false, \"text\": \"hi\"\x7d\n```") _ _ _ _
    (by decide +kernel)).mpr ?_
  intro rule hrule
  obtain rfl : rewriting = rule := Option.some.inj ((show (gatedBy rewriting).rule 0 = some rewriting by
    decide +kernel).symm.trans hrule)
  exact ⟨fun hoff => absurd hoff (by decide), fun hoff => absurd hoff (by decide)⟩

/-- A keyword drops the text also of a rule that lets advertisements pass. -/
theorem keyword_drops_switched_off : ¬ ∀ (out : Outside) (loads : String → Except LoadsError Json)
    (complete : CloneRule → AiGroup → String → Except String String) (s : ControlPlane) (ruleId : ℕ)
    (text : String) (r : Transformed),
    (cloneTransform (out.asking loads complete) ruleId text).answer s = .ok r →
      ObeysSwitches s ruleId text r := by
  intro hall
  let rule : CloneRule := { rewriting with aiRewrite := "off", adBlock := "off", adKeywords := ["sale"] }
  have hrule : (gatedBy rule).rule 0 = some rule := by decide +kernel
  exact (hall ControlPlane.silence loadsGreeting (fun _ _ _ => .ok "") (gatedBy rule) 0 "for sale"
    ⟨"drop", "", "keyword"⟩ (by decide +kernel)).dropped rfl rule hrule rfl

end TgPlatform
