import TgPlatform.Ai.Ending
import TgPlatform.Ai.Prompting
import TgPlatform.Ai.StripNames
import TgPlatform.Control.AiScope
import TgPlatform.Lib.Except

/-! # The content gate

What the model answers is cleaned: of names, of quotation marks and, at times, of
punctuation. Then it passes the gate of its group, or the run fails. The
candidate holds the text that has passed.
-/

namespace TgPlatform

/-- `_norm`. -/
def normText (alnum : Char → Bool) (s : String) : String := String.ofList (s.toList.filter alnum)

/-- `_PUNCT_TO_SPACE`. -/
def punctToSpace (c : Char) : Char :=
  if c ∈ ['，', '。', '、', '；', '：', ',', ';', ':'] then ' ' else c

/-- `s.split()`. -/
def splitWords (s : List Char) : List String :=
  ((s.splitOnP isSpace).filter fun w => w ≠ []).map String.ofList

/-- `_strip_punct`. -/
def stripPunct (s : String) : String := " ".intercalate (splitWords (s.toList.map punctToSpace))

def dropRole (role : Option String) (text : String) : String :=
  match truthy role with
  | none => text
  | some name =>
    if (name ++ ":").toList <+: text.toList then
      strip (String.ofList (text.toList.drop (name.length + 1)))
    else text

def unquote (text : String) : String :=
  if 2 ≤ text.length && text.toList.head?.any (fun c => c ∈ ['"', '“', '「']) &&
    text.toList.getLast?.any (fun c => c ∈ ['"', '”', '」'])
  then strip (String.ofList text.toList.tail.dropLast) else text

/-- What `_openai_execute` calls to make a reply out of its messages. -/
structure ReplyWriter where
  /-- `openai_complete`: the reply of the model, or the error of the call. -/
  complete : String → String → String → List ModelMessage → Except String String
  /-- Under `re.IGNORECASE`, the first character in a pattern matches the second one. -/
  same : Char → Char → Bool
  order : SetOrder
  /-- `str.isalnum`, of a character. -/
  alnum : Char → Bool
  /-- `random.random() * 100`. -/
  percent : Prompt → ℚ
  /-- `random.randint(1, 100)`. -/
  roll : Prompt → ℤ

section Gate

variable (w : ReplyWriter) (out : Outside)

/-- A message of the cache is the same up to the case and the punctuation. -/
def repeats (text : String) (m : Json) : Bool :=
  normText w.alnum (out.lower ((m.field "text" (.str "")).toStr out.python.repr)) =
    normText w.alnum (out.lower text)

/-- `_gate_reason`. -/
def gateReason (group : AiGroup) (text mode : String) : Option String :=
  if group.maxReplyChars ≠ 0 && group.maxReplyChars * 2 < text.length then some "too_long"
  else
    match group.blockedWords.find? fun word => strip word ≠ "" &&
      (out.lower (strip word)).toList <:+: (out.lower text).toList with
    | some word => some ("blocked_word:" ++ String.ofList ((strip word).toList.take 30))
    | none =>
      if mode ≠ "script" && normText w.alnum (out.lower text) ≠ "" &&
        (lastItems 50 group.recentMessages).any (repeats w out text)
      then some "duplicate" else none

/-- `_gate`. -/
def gate (p : Prompt) (text mode : String) : String × Option String :=
  let text := unquote (dropRole p.binding.roleName (dropRole p.binding.roleName (strip text)))
  if text = "" then (text, some "empty")
  else
    match p.group with
    | none => (text, none)
    | some group =>
      if group.punctSpaceProb ≠ 0 && w.percent p < group.punctSpaceProb then
        let text := stripPunct text
        if text = "" then (text, some "empty") else (text, gateReason w out group text mode)
      else (text, gateReason w out group text mode)

def addressees (p : Prompt) : List String :=
  let names := memberNames out.python p
  [p.senderName, p.binding.roleName.getD ""] ++ names.order.filterMap names.get? ++
    (p.context ++ p.after).filterMap fun m => (m.field "sender" (.str "")).str?

/-- The text of the script line, or what the model answers. -/
def ReplyWriter.raw (p : Prompt) : Except String String :=
  if p.run.mode out.python = "script" && !(p.run.triggerSource.field "rewrite" .null).truthy then
    let scriptLine := p.run.triggerSource.field "script_line" .null
    .ok (if scriptLine.truthy then scriptLine.toStr out.python.repr else "")
  else
    (w.complete p.baseUrl (p.apiKey.getD "") (p.model.getD "") (buildMessages out.python p)).mapError
      fun err => if err = "" then "generate_failed" else err

def quoteTo (p : Prompt) : Option ℤ :=
  let mid := p.run.triggerSource.field "mid" .null
  if p.run.mode out.python = "reply" && mid.truthy && p.group.any fun g => w.roll p ≤ g.quoteProb
  then mid.toInt out.python.parseInt else none

/-- The reply of `_openai_execute` and the message it quotes, or the error of the run. -/
def ReplyWriter.write (p : Prompt) : Except String (String × Option ℤ) := do
  let mode := p.run.mode out.python
  let reply ← w.raw out p
  let named := if mode = "reply" then stripNames w.same w.order reply (addressees out p) else reply
  match gate w out p named mode with
  | (_, some reason) => .error ("gate:" ++ reason)
  | (text, none) => .ok (text, quoteTo w out p)

def Outside.writing : Outside := { out with generate := w.write out }

/-- The text keeps to the settings of the group. Words are looked for in the lower-cased text,
which is letter by letter as long as no capital sigma is among the letters. -/
structure PassesGate (group : AiGroup) (mode text : String) : Prop where
  nonempty : text ≠ ""
  short : group.maxReplyChars ≠ 0 → (text.length : ℤ) ≤ 2 * group.maxReplyChars
  clean : ∀ word ∈ group.blockedWords, strip word ≠ "" →
    ¬ (out.lower (strip word)).toList <:+: (out.lower text).toList
  letters : 'Σ' ∉ text.toList → ∀ word ∈ group.blockedWords, strip word ≠ "" →
    'Σ' ∉ (strip word).toList →
      ¬ out.casing.letters (strip word).toList <:+: out.casing.letters text.toList
  fresh : mode ≠ "script" → (∃ c ∈ (out.lower text).toList, w.alnum c = true) →
    ∀ m ∈ lastItems 50 group.recentMessages, repeats w out text m = false

variable {w out} {group : AiGroup} {text mode : String} {p : Prompt}

theorem passesGate_of_reason (hne : text ≠ "") (h : gateReason w out group text mode = none) :
    PassesGate w out group mode text := by
  unfold gateReason at h
  split at h
  · cases h
  · rename_i hlong
    split at h
    · cases h
    · rename_i hclean
      split at h
      · cases h
      · rename_i hfresh
        have hlower : ∀ word ∈ group.blockedWords, strip word ≠ "" →
            ¬ (out.lower (strip word)).toList <:+: (out.lower text).toList := by
          intro word hword hstrip hinfix
          rw [List.find?_eq_none] at hclean
          exact hclean word hword (by simp [hstrip, hinfix])
        constructor
        · exact hne
        · intro hlimit
          simp only [Bool.and_eq_true, decide_eq_true_eq, not_and, not_lt] at hlong
          have hlong := hlong hlimit
          omega
        · exact hlower
        · intro htext word hword hstrip hsigma
          have hnot := hlower word hword hstrip
          rwa [Outside.lower, Outside.lower,
            CaseTables.lower_toList hsigma, CaseTables.lower_toList htext] at hnot
        · rintro hmode ⟨c, hc, halnum⟩ m hm
          have hnorm : normText w.alnum (out.lower text) ≠ "" := by
            intro hempty
            have hmem : c ∈ (normText w.alnum (out.lower text)).toList := by
              rw [normText, String.toList_ofList, List.mem_filter]
              exact ⟨hc, halnum⟩
            rw [hempty] at hmem
            cases hmem
          by_contra hrepeats
          refine hfresh ?_
          simp only [Bool.and_eq_true, decide_eq_true_eq, List.any_eq_true]
          exact ⟨⟨hmode, hnorm⟩, m, hm, Bool.eq_true_of_not_eq_false hrepeats⟩

theorem passesGate_of_gate {raw : String} (hgroup : p.group = some group)
    (h : gate w out p raw mode = (text, none)) : PassesGate w out group mode text := by
  unfold gate at h
  rw [hgroup] at h
  dsimp only at h
  split at h
  · cases h
  · rename_i hne
    split at h
    · split at h
      · cases h
      · rename_i hne
        obtain ⟨rfl, hreason⟩ := Prod.mk.inj h
        exact passesGate_of_reason hne hreason
    · obtain ⟨rfl, hreason⟩ := Prod.mk.inj h
      exact passesGate_of_reason hne hreason

theorem write_eq_ok {quote : Option ℤ} (h : w.write out p = .ok (text, quote)) :
    ∃ raw, gate w out p raw (p.run.mode out.python) = (text, none) := by
  unfold ReplyWriter.write at h
  obtain ⟨reply, -, h⟩ := Except.bind_eq_ok.mp h
  dsimp only at h
  generalize (if p.run.mode out.python = "reply" then _ else reply) = raw at h
  split at h
  · cases h
  · rename_i hgate
    obtain ⟨rfl, -⟩ := Prod.mk.inj (Except.ok.inj h)
    exact ⟨raw, hgate⟩

def ControlPlane.SaysOnly (s s' : ControlPlane) (P : String → Prop) : Prop :=
  ∀ i c, s'.candidates.row? i = some c →
    s.candidates.row? i = some c ∨ s.candidates.row? i = none ∧ P c.content

theorem ControlPlane.SaysOnly.of_eq {s s' : ControlPlane} {P : String → Prop}
    (h : s'.candidates = s.candidates) : s.SaysOnly s' P := by
  intro i c hc
  rw [h] at hc
  exact .inl hc

theorem ControlPlane.createSendJob_candidates {s s' : ControlPlane} {approval : Approval}
    {candidate : AiCandidate} {now : Time} (h : s.createSendJob approval candidate now = .ok s') :
    s'.candidates = s.candidates := by
  rcases createSendJob_cases h with rfl | ⟨t, q, a, -, -, -, rfl⟩
  · rfl
  · rfl

section Created

variable {s s' : ControlPlane} {sha256 : String → String} {run : AiRun} {conv : AiConversation}
  {binding : Option AiBinding} {g : Option AiGroup} {replyTo : Option ℤ} {minted : Minted} {now : Time}
  {pk : CandidateId}

theorem ControlPlane.createCandidate_content {c : AiCandidate}
    (h : s.createCandidate sha256 run conv text binding g replyTo minted now = .ok (pk, s'))
    (hc : s'.candidates.row? pk = some c) : c.content = text := by
  rw [createCandidate_eq] at h
  dsimp only at h
  split at h
  · generalize hcreated : (s.withCandidate (run.candidate conv sha256 text replyTo minted now) _) =
      created at h
    have hcandidates : created.candidates =
        s.candidates.add (run.candidate conv sha256 text replyTo minted now) := by
      rw [← hcreated]
      rfl
    cases hqueued : (created.approveCandidate s.candidates.size).createSendJob _ _ now with
    | error e =>
      rw [hqueued] at h
      cases h
    | ok queued =>
      rw [hqueued] at h
      obtain ⟨rfl, rfl⟩ := Prod.mk.inj (Except.ok.inj h)
      rw [createSendJob_candidates hqueued, approveCandidate, Slots.row?_modify_self, hcandidates,
        Slots.row?_add, if_pos rfl] at hc
      cases hc
      rfl
  · obtain ⟨rfl, rfl⟩ := Prod.mk.inj (Except.ok.inj h)
    rw [withCandidate, Slots.row?_add, if_pos rfl] at hc
    cases hc
    rfl

theorem ControlPlane.createCandidate_speaks {P : String → Prop}
    (h : s.createCandidate sha256 run conv text binding g replyTo minted now = .ok (pk, s'))
    (hP : P text) : s.SaysOnly s' P := by
  intro i c hc
  have hcreated := createCandidate_created h
  obtain ⟨new, -, -, hrows⟩ := hcreated.candidate
  by_cases hi : i = pk
  · subst hi
    refine .inr ⟨?_, by rwa [createCandidate_content h hc]⟩
    rw [hcreated.pk_eq]
    exact Slots.row?_size
  · rw [hrows, if_neg hi] at hc
    exact .inl hc

end Created

section Execute

variable {pk : RunId} {run : AiRun} {cid : ConversationId} {conv : AiConversation}
  {binding : AiBinding} {s : ControlPlane} {U : Use → Prop}

theorem failRun_speaks {err : String} {P : String → Prop} :
    Txn.Post (failRun pk cid err) s U fun _ s' => s.SaysOnly s' P :=
  .bind (.write (.read (.of_eq rfl)))

theorem openaiFinish_speaks {g : GroupId × AiGroup} (hgroup : p.group = some g.2) :
    Txn.Post (openaiFinish (out.writing w) p (some g) pk mode cid conv) s U fun _ s' =>
      s.SaysOnly s' (PassesGate w out g.2 (p.run.mode out.python)) := by
  refine .bind (.read ?_)
  split
  · exact .ret (.of_eq rfl)
  · split
    · exact failRun_speaks
    · rename_i text quote hreply
      obtain ⟨raw, hgate⟩ := write_eq_ok hreply
      refine .bind (.exec fun candidateId created h => ?_)
      -- what comes after the candidate does not touch the candidates
      have hspeaks : s.SaysOnly created (PassesGate w out g.2 (p.run.mode out.python)) :=
        ControlPlane.createCandidate_speaks h (passesGate_of_gate hgroup hgate)
      exact .bind (.write (.read hspeaks))

/-- **The content gate.** Whatever the model, its output and the draws are, a candidate that
`_openai_execute` creates with a group holds a text that keeps to the settings of the group. -/
theorem openaiExecute_passes_gate (w : ReplyWriter) (out : Outside) (obj : AiTrigger)
    (binding : AiBinding) (cid : ConversationId) (conv : AiConversation) (pk : RunId) (run : AiRun)
    (context after : List Json) (g : GroupId × AiGroup) (s : ControlPlane) :
    Txn.Post (openaiExecute (out.writing w) obj binding cid conv pk run context after (some g)) s
      (fun _ => True) fun _ s' => ∀ i c, s'.candidates.row? i = some c →
        s.candidates.row? i = some c ∨
          s.candidates.row? i = none ∧ PassesGate w out g.2 (run.mode out.python) c.content := by
  unfold openaiExecute
  dsimp only
  split
  · exact openaiFinish_speaks rfl
  · split
    · exact failRun_speaks
    · exact .bind (.read (.bind (.read (.bind (.emit trivial (openaiFinish_speaks rfl))))))

end Execute

end Gate

/-! ## A capital sigma -/

/-- The tables for the Latin and the Greek alphabet, without accents. -/
def greekCasing : CaseTables where
  letter x := if 'Α' ≤ x ∧ x ≤ 'Ω' then [Char.ofNat (x.toNat + 32)] else [x.toLower]
  cased x := x.isAlpha || 'Α' ≤ x && x ≤ 'ω'
  ignorable x := x ∈ ['\'', '.', ':', '^', '_']

def plainWriter : ReplyWriter where
  complete _ _ _ _ := .error ""
  same a b := a = b
  order := ⟨id, fun l => .refl l⟩
  alnum := Char.isAlphanum
  percent _ := 100
  roll _ := 100

def greekLine : AiRun where
  uuid := "r"
  tenantId := 1
  projectId := 1
  conversationId := 0
  sessionId := ""
  triggerSource := .dict [("mode", .str "script"), ("script_line", .str "ΟΔΟΣΑ")]
  idempotencyKey := ""

def greekConversation : AiConversation where
  uuid := "c"
  tenantId := 1
  projectId := 1
  accountId := 1
  bindingId := 0
  chatId := -100
  sessionId := ""

def greekSpeaker : AiBinding where
  uuid := "b"
  tenantId := 1
  projectId := 1
  accountId := 1
  botUuid := ""
  baseUrl := ""
  inboundSecretRef := ""
  outboundSecretRef := ""
  engine := "openai"
  groupId := some 0

def greekGroup : AiGroup where
  tenantId := 1
  projectId := 1
  name := "g"
  chatId := -100
  blockedWords := ["ΟΔΟΣ"]

/-- The blocked word ends with a capital sigma, which has another lower case there than before
the alpha of the text. -/
theorem final_sigma_passes_gate : ¬ ∀ (w : ReplyWriter) (out : Outside) (obj : AiTrigger)
    (binding : AiBinding) (cid : ConversationId) (conv : AiConversation) (pk : RunId) (run : AiRun)
    (context after : List Json) (g : GroupId × AiGroup) (s : ControlPlane),
    Txn.Post (openaiExecute (out.writing w) obj binding cid conv pk run context after (some g)) s
      (fun _ => True) fun _ s' => ∀ i c, s'.candidates.row? i = some c →
        s.candidates.row? i = some c ∨ ∀ word ∈ g.2.blockedWords, strip word ≠ "" →
          ¬ out.casing.letters (strip word).toList <:+: out.casing.letters c.content.toList := by
  intro h
  let out : Outside := { ControlPlane.silence with casing := greekCasing }
  let s : ControlPlane := { ControlPlane.ofDirectory .oneProject with
    bindings := ⟨[some greekSpeaker]⟩
    conversations := ⟨[some greekConversation]⟩
    runs := ⟨[some greekLine]⟩ }
  have hobserved : ((openaiExecute (out.writing plainWriter)
      { bindingId := 0, chatId := -100, text := "", mode := "script" } greekSpeaker 0
      greekConversation 0 greekLine [] [] (some (0, greekGroup)) s).2.toOption.bind fun x =>
        (x.2.candidates.row? 0).map fun c => c.content) = some "ΟΔΟΣΑ" := by
    decide +kernel
  obtain ⟨⟨answer, s'⟩, hrun, hcandidate⟩ := Option.bind_eq_some_iff.mp hobserved
  obtain ⟨c, hc, hcontent⟩ := Option.map_eq_some_iff.mp hcandidate
  have hpost := (h plainWriter out _ greekSpeaker 0 greekConversation 0 greekLine [] []
    (0, greekGroup) s).2 answer s' (Except.toOption_eq_some.mp hrun) 0 c hc
  rcases hpost with hbefore | hclean
  · cases hbefore
  · refine hclean "ΟΔΟΣ" (List.mem_cons_self ..) (by decide +kernel) ?_
    rw [hcontent]
    decide +kernel

end TgPlatform
