import Mathlib.Data.Rat.Floor
import Mathlib.Tactic.Linarith
import TgPlatform.Ai.CallbackIsolation

/-! # What the callback door answers

The headers of a callback may raise where its signature is verified: an infinite
timestamp, or a signature that is not ASCII. The window is checked in whole
seconds. Of a callback that is signed in time, the body may raise where it is
read, the row where it does not fit its columns, and the run where its last
segment has no reply. A database that refuses more than a value too long for
its column is not considered.
-/

namespace TgPlatform

/-! ## Whole seconds -/

theorem truncate_of_nonneg {q : ℚ} (h : 0 ≤ q) : truncate q = ⌊q⌋ := by
  rw [Rat.floor_def']
  exact Int.tdiv_eq_ediv_of_nonneg (Rat.num_nonneg.mpr h)

theorem truncate_neg (q : ℚ) : truncate (-q) = -truncate q := by
  unfold truncate
  rw [Rat.num_neg_eq_neg_num, Rat.den_neg_eq_den, Int.neg_tdiv]

theorem truncate_of_nonpos {q : ℚ} (h : q ≤ 0) : truncate q = ⌈q⌉ := by
  have hneg : truncate (-q) = ⌊-q⌋ := truncate_of_nonneg (neg_nonneg.mpr h)
  rw [truncate_neg, Int.floor_neg, neg_inj] at hneg
  exact hneg

/-- Times within a window of whole seconds stay so when their fractions are cut off. -/
theorem truncate_sub_le {a b : ℚ} {n : ℤ} (hn : 0 ≤ n) (h : a - b ≤ n) :
    truncate a - truncate b ≤ n := by
  rcases le_total 0 a with ha | ha <;> rcases le_total 0 b with hb | hb
  · rw [truncate_of_nonneg ha, truncate_of_nonneg hb]
    have hlt : ((⌊a⌋ - ⌊b⌋ : ℤ) : ℚ) < (n + 1 : ℤ) := by
      push_cast
      linarith [Int.floor_le a, Int.lt_floor_add_one b]
    have hlt' := Int.cast_lt.mp hlt
    omega
  · rw [truncate_of_nonneg ha, truncate_of_nonpos hb]
    have hle : ((⌊a⌋ - ⌈b⌉ : ℤ) : ℚ) ≤ n := by
      push_cast
      linarith [Int.floor_le a, Int.le_ceil b]
    exact Int.cast_le.mp hle
  · rw [truncate_of_nonpos ha, truncate_of_nonneg hb]
    have ha' : ⌈a⌉ ≤ 0 := Int.ceil_le.mpr (by simpa using ha)
    have hb' : 0 ≤ ⌊b⌋ := Int.floor_nonneg.mpr hb
    omega
  · rw [truncate_of_nonpos ha, truncate_of_nonpos hb]
    have hlt : ((⌈a⌉ - ⌈b⌉ : ℤ) : ℚ) < (n + 1 : ℤ) := by
      push_cast
      linarith [Int.ceil_lt_add_one a, Int.le_ceil b]
    have hlt' := Int.cast_lt.mp hlt
    omega

theorem natAbs_truncate_sub_le {a b : ℚ} (h : |a - b| ≤ replayWindow) :
    ((truncate a - truncate b).natAbs : ℤ) ≤ replayWindow := by
  obtain ⟨hlow, hhigh⟩ := abs_le.mp h
  have hab : truncate a - truncate b ≤ replayWindow := truncate_sub_le (by decide) hhigh
  have hba : truncate b - truncate a ≤ replayWindow := truncate_sub_le (by decide) (by linarith)
  omega

/-! ## The headers -/

def IsAscii (s : String) : Prop := ∀ c ∈ s.toList, c.toNat < 128

/-- The door's reading of a callback's headers raises. -/
inductive HeaderRaises (py : Python) (timestamp signature : Option String) (clock : ℤ) : Prop
  | infinite {text given : String} {negative : Bool} : truthy timestamp = some text →
      truthy signature = some given → py.parseFloat text = some (.infinity negative) →
      HeaderRaises py timestamp signature clock
  | nonAscii {text given : String} {ts : ℚ} : truthy timestamp = some text →
      truthy signature = some given → py.parseFloat text = some (.finite ts) →
      ((clock - truncate ts).natAbs : ℤ) ≤ replayWindow → ¬ IsAscii given →
      HeaderRaises py timestamp signature clock

/-- The signature is that of the timestamp's text and of the body, at a whole second within the
window. -/
def SignedNear (py : Python) (secret : String) (body : Bytes) (timestamp signature : Option String)
    (clock : ℤ) : Prop :=
  ∃ text ts, truthy timestamp = some text ∧
    signature = some (computeSignature py secret body text) ∧
    py.parseFloat text = some (.finite ts) ∧ ((clock - truncate ts).natAbs : ℤ) ≤ replayWindow

/-- `hexdigest` has hexadecimal digits only. -/
def AsciiDigests (py : Python) : Prop := ∀ key message, IsAscii (py.hmacSha256 key message)

section Headers

variable {py : Python} {secret : String} {body : Bytes} {timestamp signature : Option String}
  {clock : ℤ} {x y text given : String}

theorem compareDigest_of_ascii (hx : IsAscii x) (hy : IsAscii y) :
    compareDigest x y = .ok (decide (x = y)) := by
  unfold compareDigest
  rw [if_pos]
  simpa [IsAscii, or_imp, forall_and] using ⟨hx, hy⟩

theorem compareDigest_of_not_ascii (hy : ¬ IsAscii y) :
    compareDigest x y = .error (.uncaught "TypeError") := by
  unfold compareDigest
  rw [if_neg]
  intro h
  refine hy fun c hc => ?_
  have hall := List.all_eq_true.mp h c (List.mem_append_right _ hc)
  exact of_decide_eq_true hall

theorem isAscii_of_all (h : (x.toList.all fun c => c.toNat < 128) = true) : IsAscii x := by
  intro c hc
  exact of_decide_eq_true (List.all_eq_true.mp h c hc)

theorem isAscii_computeSignature (hpy : AsciiDigests py) :
    IsAscii (computeSignature py secret body text) := by
  intro c hc
  unfold computeSignature at hc
  rw [String.toList_append, List.mem_append] at hc
  rcases hc with hc | hc
  · have hsha : IsAscii "sha256=" := isAscii_of_all rfl
    exact hsha c hc
  · exact hpy _ _ c hc

theorem computeSignature_ne : computeSignature py secret body text ≠ "" := by
  intro h
  have hlength := congrArg String.length h
  unfold computeSignature at hlength
  rw [String.length_append] at hlength
  have hsha : "sha256=".length = 7 := by decide
  simp [hsha] at hlength

inductive Verification (py : Python) (secret : String) (body : Bytes)
    (timestamp signature : Option String) (clock : ℤ) : Except Raised (Bool × String) → Prop
  | raised (e : String) : HeaderRaises py timestamp signature clock →
      Verification py secret body timestamp signature clock (.error (.uncaught e))
  | accepted : ¬ HeaderRaises py timestamp signature clock →
      SignedNear py secret body timestamp signature clock →
      Verification py secret body timestamp signature clock (.ok (true, ""))
  | refused (reason : String) : ¬ HeaderRaises py timestamp signature clock →
      ¬ SignedNear py secret body timestamp signature clock →
      Verification py secret body timestamp signature clock (.ok (false, reason))

variable (secret body timestamp signature clock) in
theorem verification (hpy : AsciiDigests py) : Verification py secret body timestamp signature clock
    (verifyCallbackSignature py secret body timestamp signature clock) := by
  unfold verifyCallbackSignature
  cases htimestamp : truthy timestamp with
  | none =>
    refine .refused _ ?_ ?_
    · rintro (⟨h, -, -⟩ | ⟨h, -, -, -, -⟩) <;> rw [htimestamp] at h <;> cases h
    · rintro ⟨_, _, h, -⟩
      rw [htimestamp] at h
      cases h
  | some text =>
    have htext : ∀ {text'}, truthy timestamp = some text' → text' = text :=
      fun h => Option.some.inj (h.symm.trans htimestamp)
    cases hsignature : truthy signature with
    | none =>
      refine .refused _ ?_ ?_
      · rintro (⟨-, h, -⟩ | ⟨-, h, -, -, -⟩) <;> rw [hsignature] at h <;> cases h
      · rintro ⟨_, _, -, h, -⟩
        rw [truthy_eq_some.mpr ⟨h, computeSignature_ne⟩] at hsignature
        cases hsignature
    | some given =>
      have hgiven : ∀ {given'}, truthy signature = some given' → given' = given :=
        fun h => Option.some.inj (h.symm.trans hsignature)
      have hraises : HeaderRaises py timestamp signature clock ↔
          (∃ negative, py.parseFloat text = some (.infinity negative)) ∨
            ∃ ts, py.parseFloat text = some (.finite ts) ∧
              ((clock - truncate ts).natAbs : ℤ) ≤ replayWindow ∧ ¬ IsAscii given := by
        constructor
        · rintro (⟨ht, hg, hparse⟩ | ⟨ht, hg, hparse, hnear, hascii⟩)
          · obtain rfl := htext ht
            exact .inl ⟨_, hparse⟩
          · obtain rfl := htext ht
            obtain rfl := hgiven hg
            exact .inr ⟨_, hparse, hnear, hascii⟩
        · rintro (⟨_, hparse⟩ | ⟨_, hparse, hnear, hascii⟩)
          · exact .infinite htimestamp hsignature hparse
          · exact .nonAscii htimestamp hsignature hparse hnear hascii
      have hnear : SignedNear py secret body timestamp signature clock ↔
          ∃ ts, py.parseFloat text = some (.finite ts) ∧
            ((clock - truncate ts).natAbs : ℤ) ≤ replayWindow ∧
              given = computeSignature py secret body text := by
        constructor
        · rintro ⟨_, ts, ht, hg, hparse, hnear⟩
          obtain rfl := htext ht
          obtain rfl := hgiven (truthy_eq_some.mpr ⟨hg, computeSignature_ne⟩)
          exact ⟨ts, hparse, hnear, rfl⟩
        · rintro ⟨ts, hparse, hnear, rfl⟩
          exact ⟨text, ts, htimestamp, (truthy_eq_some.mp hsignature).1, hparse, hnear⟩
      dsimp only
      cases hparse : py.parseFloat text with
      | none => exact .refused _ (by rw [hraises, hparse]; simp) (by rw [hnear, hparse]; simp)
      | some float =>
        cases float with
        | nan => exact .refused _ (by rw [hraises, hparse]; simp) (by rw [hnear, hparse]; simp)
        | infinity negative => exact .raised _ (hraises.mpr (.inl ⟨negative, hparse⟩))
        | finite ts =>
          dsimp only
          split
          · rename_i hlate
            have hnot : ¬ ((clock - truncate ts).natAbs : ℤ) ≤ replayWindow := not_le.mpr hlate
            refine .refused _ ?_ ?_
            · rw [hraises, hparse]
              rintro (⟨_, ⟨⟩⟩ | ⟨_, ⟨⟩, hle, -⟩)
              exact hnot hle
            · rw [hnear, hparse]
              rintro ⟨_, ⟨⟩, hle, -⟩
              exact hnot hle
          rename_i hwindow
          rw [not_lt] at hwindow
          by_cases hascii : IsAscii given
          swap
          · rw [compareDigest_of_not_ascii hascii]
            exact .raised _ (hraises.mpr (.inr ⟨ts, hparse, hwindow, hascii⟩))
          have hnot : ¬ HeaderRaises py timestamp signature clock := by
            rw [hraises, hparse]
            simpa using fun _ => hascii
          rw [compareDigest_of_ascii (isAscii_computeSignature hpy) hascii]
          by_cases hequal : computeSignature py secret body text = given
          · rw [decide_eq_true hequal]
            exact .accepted hnot (hnear.mpr ⟨ts, hparse, hwindow, hequal.symm⟩)
          · rw [decide_eq_false hequal]
            refine .refused _ hnot fun h => ?_
            obtain ⟨-, -, -, h⟩ := hnear.mp h
            exact hequal h.symm

end Headers

/-! ## The verdict -/

section Verdict

variable (py : Python) (secret : String) (body : Bytes) (timestamp signature : Option String)
  (time : ℚ)

/-- The signature is that of the timestamp's text and of the body, and the timestamp is within the
window of the time. -/
def SignedInTime : Prop :=
  ∃ text ts, truthy timestamp = some text ∧
    signature = some (computeSignature py secret body text) ∧
    py.parseFloat text = some (.finite ts) ∧ |time - ts| ≤ replayWindow

/-- There is a verdict, which is true exactly of a callback that is signed in time. -/
def VerdictExact : Prop :=
  ∃ ok reason, verifyCallbackSignature py secret body timestamp signature (truncate time) =
      .ok (ok, reason) ∧
    (ok = true ↔ SignedInTime py secret body timestamp signature time)

/-- The signature is right, but the timestamp is outside the window by a fraction of a second. -/
def SlipsThrough : Prop :=
  ∃ text ts, truthy timestamp = some text ∧
    signature = some (computeSignature py secret body text) ∧
    py.parseFloat text = some (.finite ts) ∧
    ((truncate time - truncate ts).natAbs : ℤ) ≤ replayWindow ∧ replayWindow < |time - ts|

variable {py secret body timestamp signature time}

theorem SignedInTime.near (h : SignedInTime py secret body timestamp signature time) :
    SignedNear py secret body timestamp signature (truncate time) := by
  obtain ⟨text, ts, htext, hsignature, hparse, hwindow⟩ := h
  exact ⟨text, ts, htext, hsignature, hparse, natAbs_truncate_sub_le hwindow⟩

theorem signedInTime_iff_of_near (h : SignedNear py secret body timestamp signature (truncate time)) :
    SignedInTime py secret body timestamp signature time ↔
      ¬ SlipsThrough py secret body timestamp signature time := by
  obtain ⟨text, ts, htext, hsignature, hparse, hnear⟩ := h
  constructor
  · rintro ⟨_, _, htext', -, hparse', hwindow⟩ ⟨_, _, htext'', -, hparse'', -, hslips⟩
    cases htext'.symm.trans htext''
    cases hparse'.symm.trans hparse''
    exact absurd hwindow (not_le.mpr hslips)
  · intro hnot
    refine ⟨text, ts, htext, hsignature, hparse, not_lt.mp fun hslips => hnot ?_⟩
    exact ⟨text, ts, htext, hsignature, hparse, hnear, hslips⟩

/-- The verdict is there and exact unless the headers raise or the window is missed by less than
the second that its check cuts off. -/
theorem verdictExact_iff (hpy : AsciiDigests py) :
    VerdictExact py secret body timestamp signature time ↔
      ¬ HeaderRaises py timestamp signature (truncate time) ∧
        ¬ SlipsThrough py secret body timestamp signature time := by
  have hends := verification secret body timestamp signature (truncate time) hpy
  unfold VerdictExact
  generalize verifyCallbackSignature py secret body timestamp signature (truncate time) = result
    at hends ⊢
  cases hends with
  | raised e hraises =>
    apply iff_of_false
    · rintro ⟨_, _, ⟨⟩, -⟩
    · exact fun h => h.1 hraises
  | accepted hnot hnear =>
    rw [and_iff_right hnot, ← signedInTime_iff_of_near hnear]
    constructor
    · rintro ⟨_, _, ⟨⟩, hiff⟩
      exact hiff.mp rfl
    · intro h
      exact ⟨true, "", rfl, fun _ => h, fun _ => rfl⟩
  | refused reason hnot hnear =>
    have hslips : ¬ SlipsThrough py secret body timestamp signature time := by
      rintro ⟨text, ts, htext, hsignature, hparse, hwhole, -⟩
      exact hnear ⟨text, ts, htext, hsignature, hparse, hwhole⟩
    refine iff_of_true ⟨false, reason, rfl, nofun, fun h => ?_⟩ ⟨hnot, hslips⟩
    exact absurd h.near hnear

end Verdict

/-! ## The body -/

/-- The door's reading of a body raises: it is no text, or no object, or its sequence is no number. -/
inductive BodyRaises (py : Python) (body : Bytes) : Prop
  | undecodable : py.loads body = .error .other → BodyRaises py body
  | notObject {payload : Json} : py.loads body = .ok payload → payload.isDict = false →
      BodyRaises py body
  | sequence {payload v : Json} : py.loads body = .ok payload → payload.get "sequence" = some v →
      v.truthy = true → v.toInt py.parseInt = none → BodyRaises py body

inductive Reading (py : Python) (body : Bytes) : Except Raised CallbackFields → Prop
  | raised (e : String) : BodyRaises py body → Reading py body (.error (.uncaught e))
  | refused (msg : String) : ¬ BodyRaises py body → Reading py body (.error (.error ⟨.request, msg⟩))
  | read (fields : CallbackFields) : ¬ BodyRaises py body → Reading py body (.ok fields)

theorem get_of_not_isDict {v : Json} {key : String} (h : v.isDict = false) : v.get key = none := by
  cases v with
  | dict entries => cases h
  | _ => rfl

theorem get_dict {entries : List (String × Json)} {key : String} :
    (Json.dict entries).get key = some ((entries.lookup key).getD .null) := rfl

variable {py : Python} {body : Bytes}

theorem reading (py : Python) (body : Bytes) : Reading py body (callbackFields py body) := by
  unfold callbackFields
  cases hloads : py.loads body with
  | error e =>
    have hnot : ∀ {payload}, py.loads body ≠ .ok payload := by
      intro payload h
      rw [hloads] at h
      cases h
    cases e with
    | other => exact .raised _ (.undecodable hloads)
    | decode =>
      refine .refused _ ?_
      rintro (h | ⟨h, -⟩ | ⟨h, -⟩)
      · rw [hloads] at h
        cases h
      · exact hnot h
      · exact hnot h
  | ok payload =>
    have hpayload : ∀ {payload'}, py.loads body = .ok payload' → payload' = payload := by
      intro payload' h
      rw [hloads] at h
      cases h
      rfl
    cases hdict : payload.isDict with
    | false =>
      simp only [Bind.bind, Except.bind, get_of_not_isDict hdict]
      exact .raised _ (.notObject hloads hdict)
    | true =>
      cases payload with
      | dict entries =>
        simp only [Bind.bind, Except.bind, get_dict]
        have hraises : BodyRaises py body ↔
            ((entries.lookup "sequence").getD .null).truthy = true ∧
              ((entries.lookup "sequence").getD .null).toInt py.parseInt = none := by
          constructor
          · rintro (h | ⟨h, hdict'⟩ | ⟨h, hget, htruthy, hint⟩)
            · rw [hloads] at h
              cases h
            · rw [hpayload h, hdict] at hdict'
              cases hdict'
            · rw [hpayload h, get_dict] at hget
              cases hget
              exact ⟨htruthy, hint⟩
          · rintro ⟨htruthy, hint⟩
            exact .sequence hloads get_dict htruthy hint
        generalize (entries.lookup "sequence").getD .null = v at hraises ⊢
        cases hseq : (if v.truthy then v.toInt py.parseInt else some 0) with
        | none =>
          refine .raised _ (hraises.mpr ?_)
          split at hseq
          · exact ⟨‹_›, hseq⟩
          · cases hseq
        | some seq =>
          have hnot : ¬ BodyRaises py body := by
            intro h
            obtain ⟨htruthy, hint⟩ := hraises.mp h
            rw [if_pos htruthy, hint] at hseq
            cases hseq
          dsimp only
          generalize (if ((entries.lookup "session_id").getD .null).truthy then
            ((entries.lookup "session_id").getD .null).toStr py.repr else "") = session
          generalize (if ((entries.lookup "reply_to").getD .null).truthy then
            ((entries.lookup "reply_to").getD .null).toStr py.repr else "") = reply
          split
          · exact .refused _ hnot
          · exact .read _ hnot
      | _ => cases hdict

/-! ## The request -/

namespace ControlPlane

variable (s : ControlPlane) (py : Python) (req : CallbackRequest)

structure HasSecret (b : BindingId) (secret : String) : Prop where
  active : ∃ binding, s.bindingByUuid req.bindingUuid = some (b, binding) ∧
    binding.status = "active" ∧ resolveSecret py binding.outboundSecretRef = .ok secret

def Admits (b : BindingId) : Prop :=
  ∃ secret, s.HasSecret py req b secret ∧
    SignedNear py secret req.body req.timestamp req.signature req.clock

/-- The last segment has no text that can be joined, or no conversation to go to. -/
structure Unanswerable (s : ControlPlane) (pk : RunId) (run : AiRun) (cb : AiCallback) : Prop where
  next : cb.sequence = run.expectedSeq
  final : cb.isFinal = true
  missing : s.replyText pk cb.payload = none ∨ s.conversation run.conversationId = none

/-- What makes the request raise an exception that nobody expects. -/
inductive CallbackTrap : Prop
  | headers {b : BindingId} {secret : String} : s.HasSecret py req b secret →
      HeaderRaises py req.timestamp req.signature req.clock → CallbackTrap
  | body {b : BindingId} : s.Admits py req b → BodyRaises py req.body → CallbackTrap
  | unfit {b : BindingId} {fields : CallbackFields} : s.Admits py req b →
      callbackFields py req.body = .ok fields → fields.fits = false → CallbackTrap
  | unanswerable {b : BindingId} {fields : CallbackFields} {pk : RunId} {run : AiRun} :
      s.Admits py req b → callbackFields py req.body = .ok fields → fields.fits = true →
      s.seenCallback b fields = false →
      s.linkRun fields.sessionId fields.replyTo = some (pk, run) →
      (s.store (s.storedCallback py req b fields)).Unanswerable pk run
        (s.storedCallback py req b fields) → CallbackTrap

/-- A request is answered as the door is documented: it stores one callback, or reports a repeated
one, or raises one of the platform's errors. -/
inductive Answered : Except Raised (ControlPlane × CallbackResult) → Prop
  | stored {s' : ControlPlane} (cb : AiCallback) : s'.callbacks = s.callbacks.add cb →
      Answered (.ok (s', .ok))
  | dedup : Answered (.ok (s, .dedup))
  | refused (e : ApiError) : e.kind = .notFound ∨ e.kind = .request → Answered (.error (.error e))

variable {s py req} {b : BindingId} {fields : CallbackFields} {pk : RunId} {run : AiRun}
  {cb : AiCallback} {minted : Minted} {now : Time} {s' : ControlPlane}

theorem advanceRun_callbacks (h : s.advanceRun py pk run cb minted now = .ok s') :
    s'.callbacks = s.callbacks := by
  cases advanced_of_advanceRun h with
  | stored => rfl
  | gap => rfl
  | next => rfl
  | complete => rfl

theorem advanceRun_error {e : Raised} (h : s.advanceRun py pk run cb minted now = .error e) :
    s.Unanswerable pk run cb ∧ ∃ exception, e = .uncaught exception := by
  unfold advanceRun at h
  split_ifs at h with hseq hfinal hfinal
  cases htext : s.replyText pk cb.payload with
  | none =>
    rw [htext] at h
    cases h
    exact ⟨⟨not_not.mp hseq, hfinal, .inl htext⟩, _, rfl⟩
  | some text =>
    cases hconv : s.conversation run.conversationId with
    | none =>
      rw [htext, hconv] at h
      cases h
      exact ⟨⟨not_not.mp hseq, hfinal, .inr hconv⟩, _, rfl⟩
    | some conv =>
      rw [htext, hconv] at h
      cases h

theorem Unanswerable.not_ok (h : s.Unanswerable pk run cb) :
    s.advanceRun py pk run cb minted now ≠ .ok s' := by
  intro hok
  cases advanced_of_advanceRun hok with
  | stored hne => exact hne h.next
  | gap _ hne => exact hne h.next
  | next _ hmore => simp [h.final] at hmore
  | complete _ _ _ _ htext hconv =>
    rcases h.missing with hmissing | hmissing
    · simp [hmissing] at htext
    · simp [hmissing] at hconv

theorem HasSecret.unique {b' : BindingId} {secret secret' : String} (h : s.HasSecret py req b secret)
    (h' : s.HasSecret py req b' secret') : b = b' ∧ secret = secret' := by
  obtain ⟨binding, hb, -, hsecret⟩ := h.active
  obtain ⟨binding', hb', -, hsecret'⟩ := h'.active
  cases hb.symm.trans hb'
  cases hsecret.symm.trans hsecret'
  exact ⟨rfl, rfl⟩

inductive Acceptance (s : ControlPlane) (py : Python) (req : CallbackRequest) :
    Except Raised (BindingId × CallbackFields) → Prop
  | raised (e : String) : s.CallbackTrap py req → Acceptance s py req (.error (.uncaught e))
  | refused (e : ApiError) : e.kind = .notFound ∨ e.kind = .request → ¬ s.CallbackTrap py req →
      Acceptance s py req (.error (.error e))
  | accepted (b : BindingId) (fields : CallbackFields) : s.Admits py req b →
      callbackFields py req.body = .ok fields →
      (∀ b' secret, s.HasSecret py req b' secret →
        b' = b ∧ ¬ HeaderRaises py req.timestamp req.signature req.clock) →
      Acceptance s py req (.ok (b, fields))

theorem Admits.hasSecret (h : s.Admits py req b) : ∃ secret, s.HasSecret py req b secret := by
  obtain ⟨secret, hsecret, -⟩ := h
  exact ⟨secret, hsecret⟩

theorem CallbackTrap.hasSecret (h : s.CallbackTrap py req) :
    ∃ b secret, s.HasSecret py req b secret := by
  cases h with
  | headers h _ => exact ⟨_, _, h⟩
  | body h _ => exact ⟨_, h.hasSecret⟩
  | unfit h _ _ => exact ⟨_, h.hasSecret⟩
  | unanswerable h _ _ _ _ _ => exact ⟨_, h.hasSecret⟩

theorem resolveSecret_error {secretRef : String} {e : Raised}
    (h : resolveSecret py secretRef = .error e) :
    ∃ msg, e = .error ⟨.notFound, msg⟩ := by
  unfold resolveSecret at h
  split at h
  · cases h
  · cases h
    exact ⟨_, rfl⟩

theorem acceptance (hpy : AsciiDigests py) : Acceptance s py req (s.acceptCallback py req) := by
  unfold acceptCallback
  cases hbinding : s.bindingByUuid req.bindingUuid with
  | none =>
    refine .refused _ (.inl rfl) fun htrap => ?_
    obtain ⟨b, secret, h⟩ := htrap.hasSecret
    obtain ⟨binding, hb, -⟩ := h.active
    rw [hbinding] at hb
    cases hb
  | some found =>
    obtain ⟨b, binding⟩ := found
    by_cases hactive : binding.status = "active"
    swap
    · simp only [ne_eq, hactive, not_false_eq_true, if_true]
      refine .refused _ (.inl rfl) fun htrap => ?_
      obtain ⟨b', secret, h⟩ := htrap.hasSecret
      obtain ⟨binding', hb, hactive', -⟩ := h.active
      cases hbinding.symm.trans hb
      exact hactive hactive'
    simp only [ne_eq, hactive, not_true_eq_false, if_false, Bind.bind, Except.bind]
    cases hsecret : resolveSecret py binding.outboundSecretRef with
    | error e =>
      obtain ⟨msg, rfl⟩ := resolveSecret_error hsecret
      refine .refused _ (.inl rfl) fun htrap => ?_
      obtain ⟨b', secret, h⟩ := htrap.hasSecret
      obtain ⟨binding', hb, -, hsecret'⟩ := h.active
      cases hbinding.symm.trans hb
      rw [hsecret] at hsecret'
      cases hsecret'
    | ok secret =>
      have hhas : s.HasSecret py req b secret := ⟨binding, hbinding, hactive, hsecret⟩
      have hends := verification secret req.body req.timestamp req.signature req.clock hpy
      dsimp only
      generalize verifyCallbackSignature py secret req.body req.timestamp req.signature req.clock =
        result at hends ⊢
      cases hends with
      | raised e hraises => exact .raised e (.headers hhas hraises)
      | refused reason hnot hnear =>
        refine .refused _ (.inr rfl) fun htrap => ?_
        have hadmits : ∀ b', ¬ s.Admits py req b' := by
          rintro b' ⟨secret', h, hnear'⟩
          obtain ⟨-, rfl⟩ := hhas.unique h
          exact hnear hnear'
        cases htrap with
        | headers _ hraises => exact hnot hraises
        | body h _ => exact hadmits _ h
        | unfit h _ _ => exact hadmits _ h
        | unanswerable h _ _ _ _ _ => exact hadmits _ h
      | accepted hnot hnear =>
        have hadmits : s.Admits py req b := ⟨secret, hhas, hnear⟩
        have hreading := reading py req.body
        cases hfields : callbackFields py req.body with
        | ok fields =>
          exact .accepted b fields hadmits hfields fun b' secret' h => ⟨(hhas.unique h).1.symm, hnot⟩
        | error e =>
          rw [hfields] at hreading
          have hno : ∀ {fields}, callbackFields py req.body ≠ .ok fields := by
            intro fields h
            rw [hfields] at h
            cases h
          cases hreading with
          | raised e hbody => exact .raised e (.body hadmits hbody)
          | refused msg hbody =>
            refine .refused _ (.inr rfl) fun htrap => ?_
            cases htrap with
            | headers _ hraises => exact hnot hraises
            | body _ h => exact hbody h
            | unfit _ h _ => exact hno h
            | unanswerable _ h _ _ _ _ => exact hno h

theorem callbackTrap_iff_of_accepted (hadmits : s.Admits py req b)
    (hfields : callbackFields py req.body = .ok fields)
    (hno : ∀ b' secret, s.HasSecret py req b' secret →
      b' = b ∧ ¬ HeaderRaises py req.timestamp req.signature req.clock) :
    s.CallbackTrap py req ↔ fields.fits = false ∨ fields.fits = true ∧
      s.seenCallback b fields = false ∧ ∃ pk run,
        s.linkRun fields.sessionId fields.replyTo = some (pk, run) ∧
        (s.store (s.storedCallback py req b fields)).Unanswerable pk run
          (s.storedCallback py req b fields) := by
  have hsame : ∀ {b'}, s.Admits py req b' → b' = b := by
    intro b' h
    obtain ⟨secret, hsecret⟩ := h.hasSecret
    exact (hno b' secret hsecret).1
  have hreading := reading py req.body
  rw [hfields] at hreading
  constructor
  · rintro (⟨h, hraises⟩ | ⟨-, hbody⟩ | ⟨-, hread, hfits⟩ | ⟨h, hread, hfits, hnew, hlink, hmissing⟩)
    · exact absurd hraises (hno _ _ h).2
    · cases hreading with
      | read _ hnot => exact absurd hbody hnot
    · cases hfields.symm.trans hread
      exact .inl hfits
    · cases hfields.symm.trans hread
      obtain rfl := hsame h
      exact .inr ⟨hfits, hnew, _, _, hlink, hmissing⟩
  · rintro (hfits | ⟨hfits, hnew, pk, run, hlink, hmissing⟩)
    · exact .unfit hadmits hfields hfits
    · exact .unanswerable hadmits hfields hfits hnew hlink hmissing

/-- The door answers as documented unless one of the traps is in the request. -/
theorem answered_iff (hpy : AsciiDigests py) :
    s.Answered (s.handleCallback py req) ↔ ¬ s.CallbackTrap py req := by
  have haccepts : Acceptance s py req (s.acceptCallback py req) := acceptance hpy
  cases haccept : s.acceptCallback py req with
  | error e =>
    rw [haccept] at haccepts
    have hhandle : s.handleCallback py req = .error e := by
      unfold handleCallback
      rw [haccept]
      rfl
    rw [hhandle]
    cases haccepts with
    | raised e htrap => exact iff_of_false nofun (not_not_intro htrap)
    | refused e hkind hnot => exact iff_of_true (.refused e hkind) hnot
  | ok accepted =>
    obtain ⟨b, fields⟩ := accepted
    rw [haccept] at haccepts
    cases haccepts with
    | accepted _ _ hadmits hfields hno =>
      rw [handleCallback_of_accept haccept, callbackTrap_iff_of_accepted hadmits hfields hno]
      cases hfits : fields.fits with
      | false => exact iff_of_false nofun (by simp)
      | true =>
        cases hseen : s.seenCallback b fields with
        | true => exact iff_of_true .dedup (by simp)
        | false =>
          cases hlink : s.linkRun fields.sessionId fields.replyTo with
          | none => exact iff_of_true (.stored _ rfl) (by simp)
          | some linked =>
            obtain ⟨pk, run⟩ := linked
            dsimp only
            cases hadvance : (s.store (s.storedCallback py req b fields)).advanceRun py pk run
                (s.storedCallback py req b fields) req.minted req.now with
            | ok s' =>
              refine iff_of_true (.stored _ (advanceRun_callbacks hadvance)) ?_
              rintro (h | ⟨-, -, pk', run', hlink', hunanswerable⟩)
              · cases h
              · cases hlink'
                exact hunanswerable.not_ok hadvance
            | error e =>
              obtain ⟨hunanswerable, exception, rfl⟩ := advanceRun_error hadvance
              exact iff_of_false nofun
                (not_not_intro (.inr ⟨rfl, rfl, pk, run, rfl, hunanswerable⟩))

theorem asciiDigests_python : AsciiDigests python := by
  have hempty : IsAscii "" := isAscii_of_all rfl
  have ha : IsAscii signatureA := isAscii_of_all rfl
  have hb : IsAscii signatureB := isAscii_of_all rfl
  intro key message
  unfold python
  dsimp only
  split_ifs
  · exact hempty
  · exact ha
  · exact hb
  · exact hempty

/-- `python` with the literal of infinity. -/
def pythonWithInfinity : Python :=
  { python with parseFloat := fun s => if s = "inf" then some (.infinity false) else none }

end ControlPlane

end TgPlatform
