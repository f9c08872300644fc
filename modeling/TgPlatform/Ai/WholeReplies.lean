import TgPlatform.Ai.Segments
import TgPlatform.Ai.Texts

/-! # Whole replies

The callback that completes a run joins everything that is stored for the run.
What it joins is the reply of this callback exactly if nothing else that was
linked to the run carries text or has stood in for one of its segments.
-/

namespace TgPlatform

namespace ControlPlane

variable {s s' : ControlPlane} {py : Python} {req : CallbackRequest} {b : BindingId}
  {fields : CallbackFields} {pk : RunId} {run : AiRun}

def upTo (n : ℕ) : List ℤ := (List.range n).map fun i : ℕ => (i : ℤ) + 1

/-- `segments` are the segments 1 to n of a reply whose last segment is `last`, all received for
the run under one binding and one message, and `text` is their text and that of nothing else. -/
structure WholeReply (s : ControlPlane) (pk : RunId) (last : AiCallback)
    (segments : List AiCallback) (text : String) : Prop where
  received : ∀ c ∈ segments, s.SegmentOf pk c ∧ c.bindingId = last.bindingId ∧ c.replyTo = last.replyTo
  numbered : segments.map AiCallback.sequence = upTo segments.length
  ends : segments.getLast? = some last
  final : last.isFinal = true
  text : joinedTexts segments = some text
  others : ∀ c, s.SegmentOf pk c →
    c.bindingId = last.bindingId ∧ c.replyTo = last.replyTo ∧ c.sequence ≤ last.sequence ∨
      segmentTexts c = some []

/-- A candidate that a callback creates is the whole reply of a run that the callback completes. -/
def ProducesWhole (s : ControlPlane) (a : AiAction) (s' : ControlPlane) : Prop :=
  a.isCallback = true → ∀ cid c, s.candidates.row? cid = none → s'.candidates.row? cid = some c →
    ∃ pk r r' last segments, s.runs.row? pk = some r ∧ s'.runs.row? pk = some r' ∧
      r.status.active = true ∧ r'.status = .completed ∧ r'.candidateId = some cid ∧
      c.agentRunId = some r.uuid ∧ s'.callbacks.row? s.callbacks.size = some last ∧
      s'.WholeReply pk last segments c.content

/-- The request is accepted and new, and its segment completes the run. -/
structure Completes (s : ControlPlane) (py : Python) (req : CallbackRequest) (b : BindingId)
    (fields : CallbackFields) (pk : RunId) (run : AiRun) : Prop where
  accepted : s.acceptCallback py req = .ok (b, fields)
  fits : fields.fits = true
  new : s.seenCallback b fields = false
  linked : s.linkRun fields.sessionId fields.replyTo = some (pk, run)
  final : fields.isFinal = true
  next : fields.sequence = run.expectedSeq
  joins : ((s.store (s.storedCallback py req b fields)).replyText pk fields.payload).isSome = true
  conversation : (s.conversation run.conversationId).isSome = true

/-- The callback was received under the binding and the message of the last segment, before it. -/
def SameReply (b : BindingId) (fields : CallbackFields) (c : AiCallback) : Prop :=
  c.bindingId = b ∧ c.replyTo = fields.replyTo ∧ c.sequence < fields.sequence

instance (b : BindingId) (fields : CallbackFields) : DecidablePred (SameReply b fields) :=
  fun _ => inferInstanceAs (Decidable (_ ∧ _ ∧ _))

/-- What else is linked to a run that is completed carries no text, and has not stood in for a
segment that the reply itself is missing. -/
def NoStrays (s : ControlPlane) (a : AiAction) (_ : ControlPlane) : Prop :=
  ∀ py req b fields pk run, a = .callback py req → s.Completes py req b fields pk run →
    ∀ c, s.SegmentOf pk c → SameReply b fields c ∨ segmentTexts c = some [] ∧
      (c.sequence < fields.sequence →
        ∃ d, s.SegmentOf pk d ∧ SameReply b fields d ∧ d.sequence = c.sequence)

/-! ## The completing step -/

theorem Completes.after (h : s.Completes py req b fields pk run) : ∃ text conv,
    (s.store (s.storedCallback py req b fields)).replyText pk fields.payload = some text ∧
    s.afterCallback py req = (((s.store (s.storedCallback py req b fields)).withCandidate
      (run.candidate conv (fun t => py.sha256 (encode t)) text none req.minted req.now)
      (s.approvalOf (run.candidate conv (fun t => py.sha256 (encode t)) text none req.minted req.now)
        false req.minted req.now)).updateRun pk fun r => { r with
          expectedSeq := fields.sequence + 1
          status := .completed
          candidateId := some s.candidates.size
          completedAt := some req.now }).unlockConversation run.conversationId := by
  obtain ⟨text, htext⟩ := Option.isSome_iff_exists.mp h.joins
  obtain ⟨conv, hconv⟩ := Option.isSome_iff_exists.mp h.conversation
  refine ⟨text, conv, htext, ?_⟩
  have hstored : (s.store (s.storedCallback py req b fields)).conversation run.conversationId =
      some conv := hconv
  have hpayload : (s.storedCallback py req b fields).payload = fields.payload := rfl
  have hseq : (s.storedCallback py req b fields).sequence = run.expectedSeq := h.next
  have hfinal : (s.storedCallback py req b fields).isFinal = true := h.final
  unfold afterCallback
  rw [handleCallback_of_accept h.accepted, h.fits, h.new, h.linked]
  simp only [Bool.not_true, Bool.false_eq_true, if_false, advanceRun, hseq, hfinal, hpayload, htext,
    hstored, createCandidate_unapproved, ne_eq, not_true_eq_false, if_true]
  rw [← h.next]
  rfl

theorem completes_of_candidate {cid : CandidateId} {c : AiCandidate}
    (hnone : s.candidates.row? cid = none) (hc : (s.afterCallback py req).candidates.row? cid = some c) :
    ∃ b fields pk run, s.Completes py req b fields pk run := by
  rcases (afterCallback_cases : s.afterCallback py req = s ∨ _) with
    hsame | ⟨b, fields, haccept, hfits, hnew, ⟨-, hafter⟩ | ⟨pk, run, s', hlink, hadvance, hafter⟩⟩
  · rw [hsame, hnone] at hc
    cases hc
  · have hsame : (s.afterCallback py req).candidates = s.candidates := by rw [hafter]; rfl
    rw [hsame, hnone] at hc
    cases hc
  · rw [hafter] at hc
    cases advanced_of_advanceRun hadvance with
    | stored _ _ => exact absurd (hnone.symm.trans hc) (by simp)
    | gap err _ _ => exact absurd (hnone.symm.trans hc) (by simp)
    | next _ _ => exact absurd (hnone.symm.trans hc) (by simp)
    | complete text conv hseq hfinal htext hconv =>
      refine ⟨b, fields, pk, run, haccept, hfits, hnew, hlink, hfinal, hseq, ?_, ?_⟩
      · exact Option.isSome_iff_exists.mpr ⟨text, htext⟩
      · exact Option.isSome_iff_exists.mpr ⟨conv, hconv⟩

/-! ## The segments that are joined -/

def segments (s : ControlPlane) (pk : RunId) : List AiCallback :=
  (s.callbacks.where_ fun cb => cb.aiRunId = some pk && !cb.deleted).map Prod.snd

theorem mem_segments {c : AiCallback} : c ∈ s.segments pk ↔ s.SegmentOf pk c := by
  unfold segments SegmentOf
  constructor
  · intro h
    obtain ⟨⟨i, c⟩, hmem, rfl⟩ := List.mem_map.mp h
    obtain ⟨hrow, hq⟩ := Slots.mem_where.mp hmem
    simp only [Bool.and_eq_true, decide_eq_true_eq, Bool.not_eq_true'] at hq
    exact ⟨i, hrow, hq⟩
  · rintro ⟨i, hrow, hrun, hlive⟩
    exact List.mem_map.mpr ⟨(i, c), Slots.mem_where.mpr ⟨hrow, by simp [hrun, hlive]⟩, rfl⟩

theorem replyText_eq {cb : AiCallback} {text : String} (hcb : s.SegmentOf pk cb)
    (h : s.replyText pk cb.payload = some text) :
    joinedTexts (inSequence (s.segments pk)) = some text := by
  obtain ⟨fallback, hfallback, h⟩ := Option.bind_eq_some_iff.mp h
  change assemble (s.segments pk) fallback = some text at h
  rw [assemble_eq] at h
  obtain ⟨joined, hjoined, rfl⟩ := Option.map_eq_some_iff.mp h
  have hmem : cb ∈ inSequence (s.segments pk) := (List.mem_insertionSort _).mpr (mem_segments.mpr hcb)
  split
  · rename_i hempty
    subst hempty
    rw [fallbackText_empty hmem hfallback hjoined, hjoined]
  · exact hjoined

def replySegments (s : ControlPlane) (pk : RunId) (last : AiCallback) : List AiCallback :=
  (inSequence (s.segments pk)).filter fun c =>
    c.bindingId = last.bindingId && c.replyTo = last.replyTo && c.sequence ≤ last.sequence

theorem mem_replySegments {c last : AiCallback} : c ∈ s.replySegments pk last ↔
    s.SegmentOf pk c ∧ c.bindingId = last.bindingId ∧ c.replyTo = last.replyTo ∧
      c.sequence ≤ last.sequence := by
  unfold replySegments inSequence
  rw [List.mem_filter, List.mem_insertionSort, mem_segments]
  simp only [Bool.and_eq_true, decide_eq_true_eq, and_assoc]

theorem Segmented.eq_of_key (hs : s.Segmented) {c d : AiCallback} (hc : s.SegmentOf pk c)
    (hd : s.SegmentOf pk d) (hb : c.bindingId = d.bindingId) (hreply : c.replyTo = d.replyTo)
    (hseq : c.sequence = d.sequence) : c = d := by
  obtain ⟨r, hr, hsession⟩ := hs.linked pk c hc
  obtain ⟨r', hr', hsession'⟩ := hs.linked pk d hd
  rw [hr] at hr'
  cases hr'
  obtain ⟨i, hi, -⟩ := hc
  obtain ⟨j, hj, -⟩ := hd
  obtain rfl := hs.unique i j c d hi hj hb (hsession.symm.trans hsession') hreply hseq
  rw [hi] at hj
  cases hj
  rfl

theorem Segmented.sorted (hs : s.Segmented) (last : AiCallback) :
    ((s.replySegments pk last).map AiCallback.sequence).Pairwise (· < ·) := by
  have hsorted : (s.replySegments pk last).Pairwise fun x y => x.sequence ≤ y.sequence :=
    (List.pairwise_insertionSort (fun x y : AiCallback => x.sequence ≤ y.sequence) _).filter _
  have hnodup : (s.replySegments pk last).Nodup := by
    have hrows : (s.segments pk).Nodup := by
      unfold segments
      rw [List.nodup_map_iff_inj_on]
      · rintro ⟨i, c⟩ hi ⟨j, d⟩ hj heq
        obtain rfl : c = d := heq
        have hrow := (Slots.mem_where.mp hi).1
        have hrow' := (Slots.mem_where.mp hj).1
        rw [hs.unique i j c c hrow hrow' rfl rfl rfl rfl]
      · exact List.Nodup.of_map _ Slots.nodup_where
    exact ((List.perm_insertionSort _ _).nodup_iff.mpr hrows).filter _
  rw [List.pairwise_map]
  refine (hsorted.and hnodup).imp_of_mem ?_
  rintro x y hx hy ⟨hle, hne⟩
  obtain ⟨hx, hb, hreply, -⟩ := mem_replySegments.mp hx
  obtain ⟨hy, hb', hreply', -⟩ := mem_replySegments.mp hy
  refine lt_of_le_of_ne hle fun hseq => hne ?_
  exact hs.eq_of_key hx hy (hb.trans hb'.symm) (hreply.trans hreply'.symm) hseq

/-- If all segments up to the last one have been received, they are the segments 1 to n. -/
theorem Segmented.numbered (hs : s.Segmented) {last : AiCallback} (hlast : s.SegmentOf pk last)
    (hall : ∀ k, 1 ≤ k → k < last.sequence →
      ∃ c, s.SegmentOf pk c ∧ c.bindingId = last.bindingId ∧ c.replyTo = last.replyTo ∧ c.sequence = k) :
    (s.replySegments pk last).map AiCallback.sequence =
      upTo last.sequence.toNat := by
  have hrange : (upTo last.sequence.toNat).Pairwise (· < ·) := by
    rw [upTo, List.pairwise_map]
    exact List.pairwise_lt_range.imp fun h => by omega
  refine (hs.sorted last).eq_of_mem_iff hrange fun k => ?_
  simp only [upTo, List.mem_map, List.mem_range]
  constructor
  · rintro ⟨c, hc, rfl⟩
    obtain ⟨⟨i, hi, -⟩, -, -, hle⟩ := mem_replySegments.mp hc
    have hpos := hs.positive i c hi
    exact ⟨(c.sequence - 1).toNat, by omega, by omega⟩
  · rintro ⟨i, hi, rfl⟩
    by_cases hend : (i : ℤ) + 1 = last.sequence
    · exact ⟨last, mem_replySegments.mpr ⟨hlast, rfl, rfl, le_refl _⟩, hend.symm⟩
    · obtain ⟨c, hc, hb, hreply, hseq⟩ := hall (i + 1) (by omega) (by omega)
      exact ⟨c, mem_replySegments.mpr ⟨hc, hb, hreply, by omega⟩, hseq⟩

/-! ## Whole replies and strays -/

theorem getLast_upTo {n : ℕ} {k : ℤ} (h : (upTo n).getLast? = some k) : k = n := by
  cases n with
  | zero => cases h
  | succ n =>
    rw [upTo, List.range_succ, List.map_append, List.map_singleton, List.getLast?_concat] at h
    cases h
    push_cast
    rfl

/-- The text that a completed run is given is the whole reply if there are no strays. -/
theorem wholeReply_of_noStrays {cb : AiCallback} {text : String} (hs : (s.store cb).Segmented)
    (hrow : s.runs.row? pk = some run) (hcb : (s.store cb).SegmentOf pk cb) (hfinal : cb.isFinal = true)
    (hnext : cb.sequence = run.expectedSeq)
    (htext : (s.store cb).replyText pk cb.payload = some text)
    (hstrays : ∀ c, (s.store cb).SegmentOf pk c →
      c.bindingId = cb.bindingId ∧ c.replyTo = cb.replyTo ∧ c.sequence ≤ cb.sequence ∨
        segmentTexts c = some [] ∧ (c.sequence < cb.sequence → ∃ d, (s.store cb).SegmentOf pk d ∧
          d.bindingId = cb.bindingId ∧ d.replyTo = cb.replyTo ∧ d.sequence = c.sequence)) :
    (s.store cb).WholeReply pk cb ((s.store cb).replySegments pk cb) text := by
  have hall : ∀ k, 1 ≤ k → k < cb.sequence → ∃ c, (s.store cb).SegmentOf pk c ∧
      c.bindingId = cb.bindingId ∧ c.replyTo = cb.replyTo ∧ c.sequence = k := by
    intro k hpos hk
    obtain ⟨c, hc, hseq⟩ := hs.received pk run k hrow hpos (by omega)
    rcases hstrays c hc with ⟨hb, hreply, -⟩ | ⟨-, hstandsIn⟩
    · exact ⟨c, hc, hb, hreply, hseq⟩
    · rw [← hseq]
      exact hstandsIn (by omega)
  have hnumbered := hs.numbered hcb hall
  have hlength : ((s.store cb).replySegments pk cb).length = cb.sequence.toNat := by
    have hlengths := congrArg List.length hnumbered
    simpa [upTo] using hlengths
  have hpos : 1 ≤ cb.sequence := by
    obtain ⟨i, hi, -⟩ := hcb
    exact hs.positive i cb hi
  constructor
  · intro c hc
    obtain ⟨hc, hb, hreply, -⟩ := mem_replySegments.mp hc
    exact ⟨hc, hb, hreply⟩
  · rw [hlength]
    exact hnumbered
  · have hends := congrArg List.getLast? hnumbered
    rw [List.getLast?_map] at hends
    cases hlast : ((s.store cb).replySegments pk cb).getLast? with
    | none =>
      rw [List.getLast?_eq_none_iff] at hlast
      rw [hlast, List.length_nil] at hlength
      omega
    | some d =>
      rw [hlast, Option.map_some] at hends
      have hseq := getLast_upTo hends.symm
      obtain ⟨hd, hb, hreply, -⟩ := mem_replySegments.mp (List.mem_of_getLast? hlast)
      rw [hs.eq_of_key hd hcb hb hreply (by omega)]
  · exact hfinal
  · unfold replySegments
    rw [← replyText_eq hcb htext]
    unfold joinedTexts
    rw [allTexts_filter]
    intro c hc hother
    rw [inSequence, List.mem_insertionSort, mem_segments] at hc
    rcases hstrays c hc with ⟨hb, hreply, hle⟩ | ⟨hblank, -⟩
    · simp [hb, hreply, hle] at hother
    · exact hblank
  · intro c hc
    exact (hstrays c hc).imp_right And.left

/-- Whatever else is linked to a run whose reply is whole has no text and has stood in for no
missing segment. -/
theorem WholeReply.noStrays {cb c : AiCallback} {segments : List AiCallback} {text : String}
    (h : s.WholeReply pk cb segments text) (hs : s.Segmented) (hc : s.SegmentOf pk c) :
    c.bindingId = cb.bindingId ∧ c.replyTo = cb.replyTo ∧ c.sequence ≤ cb.sequence ∨
      segmentTexts c = some [] ∧ (c.sequence < cb.sequence → ∃ d, s.SegmentOf pk d ∧
        d.bindingId = cb.bindingId ∧ d.replyTo = cb.replyTo ∧ d.sequence = c.sequence) := by
  refine (h.others c hc).imp_right fun hblank => ⟨hblank, fun hlt => ?_⟩
  have hends := congrArg List.getLast? h.numbered
  rw [List.getLast?_map, h.ends, Option.map_some] at hends
  have hlength := getLast_upTo hends.symm
  have hpos : 1 ≤ c.sequence := by
    obtain ⟨i, hi, -⟩ := hc
    exact hs.positive i c hi
  have hmem : c.sequence ∈ segments.map AiCallback.sequence := by
    rw [h.numbered, upTo, List.mem_map]
    exact ⟨(c.sequence - 1).toNat, List.mem_range.mpr (by omega), by omega⟩
  obtain ⟨d, hd, hseq⟩ := List.mem_map.mp hmem
  obtain ⟨hd, hb, hreply⟩ := h.received d hd
  exact ⟨d, hd, hb, hreply, hseq⟩

/-! ## One step and a run -/

section Step

variable (h : s.Completes py req b fields pk run)

include h

theorem Completes.stored (hs : s.Segmented) :
    (s.store (s.storedCallback py req b fields)).Segmented := hs.store h.accepted h.new

theorem Completes.segment : (s.store (s.storedCallback py req b fields)).SegmentOf pk
    (s.storedCallback py req b fields) :=
  segmentOf_store.mpr (.inr ⟨rfl, by simp [storedCallback, CallbackFields.row, h.linked], rfl⟩)

theorem Completes.sameReply (hs : s.Segmented) {c : AiCallback} (hc : s.SegmentOf pk c)
    (hb : c.bindingId = b) (hreply : c.replyTo = fields.replyTo) (hle : c.sequence ≤ fields.sequence) :
    SameReply b fields c := by
  refine ⟨hb, hreply, lt_of_le_of_ne hle fun hseq => ?_⟩
  obtain ⟨r, hr, hsession⟩ := hs.linked pk c hc
  have hrow := (linkRun_some h.linked).1
  rw [hr] at hrow
  cases hrow
  obtain ⟨i, hi, -⟩ := hc
  have hnew := h.new
  rw [seenCallback, Option.isSome_eq_false_iff, Option.isNone_iff_eq_none] at hnew
  have hfalse := Slots.first?_eq_none hnew hi
  simp [hb, hreply, hseq, hsession.symm.trans (session_of_linkRun h.linked)] at hfalse

theorem Completes.noStrays_iff (hs : s.Segmented) :
    (∀ c, s.SegmentOf pk c → SameReply b fields c ∨ segmentTexts c = some [] ∧
      (c.sequence < fields.sequence →
        ∃ d, s.SegmentOf pk d ∧ SameReply b fields d ∧ d.sequence = c.sequence)) ↔
    ∀ c, (s.store (s.storedCallback py req b fields)).SegmentOf pk c →
      c.bindingId = b ∧ c.replyTo = fields.replyTo ∧ c.sequence ≤ fields.sequence ∨
        segmentTexts c = some [] ∧ (c.sequence < fields.sequence →
          ∃ d, (s.store (s.storedCallback py req b fields)).SegmentOf pk d ∧ d.bindingId = b ∧
            d.replyTo = fields.replyTo ∧ d.sequence = c.sequence) := by
  constructor
  · intro hstrays c hc
    rcases segmentOf_store.mp hc with hc | ⟨rfl, -, -⟩
    · rcases hstrays c hc with ⟨hb, hreply, hlt⟩ | ⟨hblank, hstandsIn⟩
      · exact .inl ⟨hb, hreply, hlt.le⟩
      · refine .inr ⟨hblank, fun hlt => ?_⟩
        obtain ⟨d, hd, ⟨hb, hreply, -⟩, hseq⟩ := hstandsIn hlt
        exact ⟨d, segmentOf_store.mpr (.inl hd), hb, hreply, hseq⟩
    · exact .inl ⟨rfl, rfl, le_refl _⟩
  · intro hstrays c hc
    rcases hstrays c (segmentOf_store.mpr (.inl hc)) with ⟨hb, hreply, hle⟩ | ⟨hblank, hstandsIn⟩
    · exact .inl (h.sameReply hs hc hb hreply hle)
    · refine .inr ⟨hblank, fun hlt => ?_⟩
      obtain ⟨d, hd, hb, hreply, hseq⟩ := hstandsIn hlt
      rcases segmentOf_store.mp hd with hd | ⟨rfl, -, -⟩
      · exact ⟨d, hd, h.sameReply hs hd hb hreply (by omega), hseq⟩
      · exact absurd hseq (by change fields.sequence ≠ c.sequence; omega)

end Step

theorem producesWhole_iff (hs : s.Segmented) (a : AiAction) :
    s.ProducesWhole a (aiNext s a) ↔ s.NoStrays a (aiNext s a) := by
  constructor
  · rintro hproduces py req b fields pk run rfl h
    obtain ⟨text, conv, -, hafter⟩ := h.after
    have hnext : aiNext s (.callback py req) = s.afterCallback py req := rfl
    rw [hnext, hafter] at hproduces
    obtain ⟨pk', r, r', last, segments, hr, hr', hactive, hdone, -, -, hlast, hwhole⟩ :=
      hproduces rfl s.candidates.size _ Slots.row?_size (by
        change (s.candidates.add _).row? s.candidates.size = _
        rw [Slots.row?_add, if_pos rfl])
    have hpk : pk' = pk := by
      by_contra hne
      have hsame : (s.runs.modify pk _).row? pk' = some r' := hr'
      rw [Slots.row?_modify, if_neg (Ne.symm hne), hr] at hsame
      cases hsame
      rw [hdone] at hactive
      cases hactive
    subst hpk
    have hcb : (s.callbacks.add _).row? s.callbacks.size = some last := hlast
    rw [Slots.row?_add, if_pos rfl] at hcb
    cases hcb
    exact (h.noStrays_iff hs).mpr fun c hc => WholeReply.noStrays (s := s.store _)
      ⟨hwhole.received, hwhole.numbered, hwhole.ends, hwhole.final, hwhole.text, hwhole.others⟩
      (h.stored hs) hc
  · intro hstrays hcallback cid c hnone hc
    cases a with
    | callback py req =>
      obtain ⟨b, fields, pk, run, h⟩ := completes_of_candidate hnone hc
      obtain ⟨text, conv, htext, hafter⟩ := h.after
      have hnext : aiNext s (.callback py req) = s.afterCallback py req := rfl
      rw [hnext, hafter] at hc ⊢
      have hadded : (s.candidates.add _).row? cid = some c := hc
      rw [Slots.row?_add] at hadded
      split at hadded
      · rename_i hcid
        subst hcid
        cases hadded
        obtain ⟨hrow, hactive⟩ := linkRun_some h.linked
        have hwhole := wholeReply_of_noStrays (h.stored hs) hrow h.segment h.final h.next htext
          ((h.noStrays_iff hs).mp (hstrays py req b fields pk run rfl h))
        refine ⟨pk, run, _, s.storedCallback py req b fields, _, hrow,
          Slots.row?_modify_self.trans (congrArg (Option.map _) hrow), hactive, rfl, rfl, rfl, ?_,
          hwhole.received, hwhole.numbered, hwhole.ends, hwhole.final, hwhole.text, hwhole.others⟩
        change (s.callbacks.add _).row? s.callbacks.size = _
        rw [Slots.row?_add, if_pos rfl]
      · rw [hnone] at hadded
        cases hadded
    | _ => cases hcallback

/-- For every sequence of steps: every candidate that a callback creates is the whole reply of its
run, exactly if nothing else that is linked to a run when it is completed carries text or has stood
in for a segment that the reply itself is missing. -/
theorem whole_replies_iff (hs : s.Segmented) (as : List AiAction) :
    Machine.Always aiStep ProducesWhole s as ↔ Machine.Always aiStep NoStrays s as := by
  refine Machine.always_iff_of_invariant (I := Segmented) ?_ ?_ as hs
  · intro s a s' hstep hs _
    cases hstep
    exact hs.step a
  · intro s a s' hstep hs
    cases hstep
    exact producesWhole_iff hs a

/-! ## Three segments -/

/-- A segment of the reply to message `in_1`, with the digest and the signature of its body. -/
structure Piece where
  digit : String
  sequence : ℤ
  isFinal : Bool
  text : String
  sha256 : String
  signature : String

namespace Piece

def first : Piece where
  digit := "1"
  sequence := 1
  isFinal := false
  text := "a"
  sha256 := "ee77ccb85faeb9d844dcc41ba3ee0dd05484f47025cfcc46b2b13ce04192b6ed"
  signature := "572fc94fb1598a5c1eca7d73ced5a22df9c7c9ad8245e4b328a89f2d89e5ff97"

def second : Piece where
  digit := "2"
  sequence := 2
  isFinal := true
  text := "b"
  sha256 := "8d08cc34cecea0396f6384b7632e400705972d413cc2a1162e112fdc44d19768"
  signature := "ca240fc1edfd59e39642191b798ebb5960b7cb604e5c167b5830b4f2727e53d1"

def third : Piece where
  digit := "3"
  sequence := 3
  isFinal := false
  text := "c"
  sha256 := "5cc60a55d96ded5198c6f17cdda9501c543358757cf7fbb51249896fe0da2536"
  signature := "a302b739793de44e960a2d04e8748d50949544dc3c0067d42b4fb275946c869f"

variable (p : Piece)

def body : Bytes := encode (
  "\x7b\"session_id\":\"sess\",\"reply_to\":\"in_1\",\"sequence\":" ++ p.digit ++
  ",\"is_final\":" ++ (if p.isFinal then "true" else "false") ++
  ",\"message\":[\x7b\"type\":\"Plain\",\"text\":\"" ++ p.text ++ "\"\x7d]\x7d")

def json : Json := .dict [("session_id", .str "sess"), ("reply_to", .str "in_1"),
  ("sequence", .int p.sequence), ("is_final", .bool p.isFinal),
  ("message", .list [.dict [("type", .str "Plain"), ("text", .str p.text)]])]

/-- The library functions on the bodies of the three segments and their texts. -/
def python : Python :=
  let pieces := [first, second, third]
  { sha256 := fun bytes =>
      if bytes = encode "a\nb\nc" then "ea7fb08b7a2dc4619ffb7c7bb38d95a2047935fa165d71b12efd3852a2e6d0cc"
      else if bytes = encode "a\nb" then
        "7e18f737311b2dc3b2f269dd78396b0351f14fb66efa879f768cb23181883c78"
      else ((pieces.find? fun p => bytes = p.body).map Piece.sha256).getD ""
    hmacSha256 := fun key msg =>
      if key ≠ encode "kb" then ""
      else ((pieces.find? fun p => msg = encode "1700000000." ++ p.body).map Piece.signature).getD ""
    loads := fun bytes =>
      match pieces.find? fun p => bytes = p.body with
      | some p => .ok p.json
      | none => .error .decode
    parseInt := fun _ => none
    parseFloat := fun s => if s = "1700000000" then some (.finite 1700000000) else none
    repr := fun _ => ""
    environ := fun name => if name = "B" then some "kb" else none
    isDigit := fun _ => false }

def action : AiAction := .callback python {
  bindingUuid := "b"
  body := p.body
  timestamp := some "1700000000"
  signature := some ("sha256=" ++ p.signature)
  clock := 1700000000
  now := 1700000000000000 }

end Piece

theorem segmented_twoBindings : twoBindings.Segmented where
  unique i j c d hc := by cases hc
  positive i c hc := by cases hc
  linked := by
    rintro pk c ⟨i, hi, -⟩
    cases hi
  received := by
    intro pk r k hr hpos hk
    obtain ⟨rfl, rfl⟩ := Prod.mk.inj (List.mem_singleton.mp (Slots.mem_all.mpr hr))
    exact absurd hk (by change ¬ k < 1; omega)

/-- A test for `NoStrays`. -/
def onlySameReply (s : ControlPlane) : AiAction → Bool
  | .callback py req =>
    match s.acceptCallback py req with
    | .ok (b, fields) => s.callbacks.all.all fun x => decide (SameReply b fields x.2)
    | .error _ => true
  | _ => true

theorem noStrays_of_onlySameReply (s : ControlPlane) (a : AiAction) (s' : ControlPlane)
    (h : s.onlySameReply a = true) : s.NoStrays a s' := by
  rintro py req b fields pk run rfl hcompletes c ⟨i, hi, -⟩
  simp only [onlySameReply, hcompletes.accepted, List.all_eq_true, decide_eq_true_eq] at h
  exact .inl (h (i, c) (Slots.mem_all.mpr hi))

/-- Two segments make a whole reply. -/
theorem two_segments_whole :
    (Machine.run aiStep twoBindings [Piece.first.action, Piece.second.action]).map
      (fun s => s.candidates.all.map fun c => c.2.content) = some ["a\nb"] ∧
      Machine.Always aiStep ProducesWhole twoBindings [Piece.first.action, Piece.second.action] := by
  constructor
  · decide +kernel
  · refine (whole_replies_iff segmented_twoBindings _).mpr ?_
    exact Machine.always_of_checkRun (c := fun s a _ => s.onlySameReply a)
      noStrays_of_onlySameReply (by decide +kernel)

/-- A third segment that was stored before the second one ends up in the reply. -/
theorem later_segment_joined : ¬ ∀ (s : ControlPlane) (as : List AiAction), s.Segmented →
    Machine.Always aiStep ProducesWhole s as := by
  intro h
  let stray (c : AiCallback) : Bool :=
    c.aiRunId = some 0 && !c.deleted && c.sequence = 3 && (segmentTexts c).any fun texts =>
      !texts.isEmpty
  have hobserved : ((Machine.run aiStep twoBindings [Piece.first.action, Piece.third.action]).bind
    fun x =>
      (aiStep x Piece.second.action).map fun y =>
        ((x.callbacks.size, x.runs.all.map Prod.fst, (x.candidates.row? 0).isNone),
          (y.candidates.row? 0).map fun c => c.content, (y.callbacks.row? 1).map stray,
          (y.callbacks.row? 2).map AiCallback.sequence)) =
      some ((2, [0], true), some "a\nb\nc", some true, some 2) := by
    decide +kernel
  obtain ⟨x, y, hrun, hstep, hy⟩ :=
    Machine.exists_of_observed (f := fun (x y : ControlPlane) => _) hobserved
  refine Machine.not_always_of_step hrun hstep ?_ (h _ _ segmented_twoBindings)
  intro hproduces
  simp only [Prod.mk.injEq, Option.map_eq_some_iff, Option.isNone_iff_eq_none] at hy
  obtain ⟨⟨hsize, hruns, hnone⟩, ⟨c, hc, -⟩, ⟨d, hd, hstray⟩, e, he, hlast⟩ := hy
  simp only [stray, Bool.and_eq_true, decide_eq_true_eq, Bool.not_eq_true'] at hstray
  obtain ⟨⟨⟨hlinked, hlive⟩, hseq⟩, htexts⟩ := hstray
  obtain ⟨pk, r, r', last, segments, hr, -, -, -, -, -, hrow, hwhole⟩ := hproduces rfl 0 c hnone hc
  have hpk : pk ∈ x.runs.all.map Prod.fst := List.mem_map_of_mem (Slots.mem_all.mpr hr)
  rw [hruns, List.mem_singleton] at hpk
  rw [hsize, he] at hrow
  cases hrow
  rcases hwhole.others d ⟨1, hd, hpk ▸ hlinked, hlive⟩ with ⟨-, -, hle⟩ | hblank
  · omega
  · simp [hblank] at htexts

end ControlPlane

end TgPlatform
