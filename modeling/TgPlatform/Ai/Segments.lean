import TgPlatform.Ai.CallbackIsolation
import TgPlatform.Ai.System

/-! # The segments of a run

A run that expects a segment has received all that come before it: whatever
else is linked to it, only the next segment moves it on.
-/

namespace TgPlatform

namespace ControlPlane

variable {s s' : ControlPlane} {py : Python} {req : CallbackRequest} {b : BindingId}
  {fields : CallbackFields} {pk : RunId} {run : AiRun} {cb : AiCallback} {minted : Minted} {now : Time}

def SegmentOf (s : ControlPlane) (pk : RunId) (c : AiCallback) : Prop :=
  ∃ i, s.callbacks.row? i = some c ∧ c.aiRunId = some pk ∧ c.deleted = false

/-- What the stored callbacks are worth. -/
structure Segmented (s : ControlPlane) : Prop where
  unique : ∀ i j c d, s.callbacks.row? i = some c → s.callbacks.row? j = some d →
    c.bindingId = d.bindingId → c.sessionId = d.sessionId → c.replyTo = d.replyTo →
    c.sequence = d.sequence → i = j
  positive : ∀ i c, s.callbacks.row? i = some c → 1 ≤ c.sequence
  linked : ∀ pk c, s.SegmentOf pk c → ∃ r, s.runs.row? pk = some r ∧ r.sessionId = c.sessionId
  received : ∀ pk r k, s.runs.row? pk = some r → 1 ≤ k → k < r.expectedSeq →
    ∃ c, s.SegmentOf pk c ∧ c.sequence = k

theorem Segmented.onward (hs : s.Segmented) (h : Onward s s') : s'.Segmented := by
  have hsegment : ∀ pk c, s'.SegmentOf pk c ↔ s.SegmentOf pk c := by
    intro pk c
    unfold SegmentOf
    rw [h.callbacks]
  constructor
  · rw [h.callbacks]
    exact hs.unique
  · rw [h.callbacks]
    exact hs.positive
  · intro pk c hc
    obtain ⟨r, hr, hsession⟩ := hs.linked pk c ((hsegment pk c).mp hc)
    obtain ⟨r', hr', hlater⟩ := h.runs.old pk r hr
    exact ⟨r', hr', hlater.sessionId.trans hsession⟩
  · intro pk r' k hr' hpos hk
    rcases h.runs.back hr' with ⟨r, hr, hlater⟩ | ⟨-, hnew⟩
    · rw [hlater.expectedSeq] at hk
      obtain ⟨c, hc, hseq⟩ := hs.received pk r k hr hpos hk
      exact ⟨c, (hsegment pk c).mpr hc, hseq⟩
    · omega

/-! ## A callback -/

theorem segmentOf_store {c : AiCallback} : (s.store cb).SegmentOf pk c ↔
    s.SegmentOf pk c ∨ c = cb ∧ cb.aiRunId = some pk ∧ cb.deleted = false := by
  unfold SegmentOf store
  constructor
  · rintro ⟨i, hi, hrun, hlive⟩
    rw [Slots.row?_add] at hi
    split at hi
    · cases hi
      exact .inr ⟨rfl, hrun, hlive⟩
    · exact .inl ⟨i, hi, hrun, hlive⟩
  · rintro (⟨i, hi, hrun, hlive⟩ | ⟨rfl, hrun, hlive⟩)
    · exact ⟨i, Slots.row?_add_of_some hi, hrun, hlive⟩
    · exact ⟨s.callbacks.size, by rw [Slots.row?_add, if_pos rfl], hrun, hlive⟩

theorem sequence_of_accept (h : s.acceptCallback py req = .ok (b, fields)) : 1 ≤ fields.sequence := by
  have hfields := (acceptCallback_eq_ok h).2
  unfold callbackFields at hfields
  simp only [bind, Except.bind, pure, Except.pure] at hfields
  repeat' split at hfields
  all_goals cases hfields
  all_goals
    rename_i hgood
    simp only [Bool.or_eq_true, decide_eq_true_eq, not_or, not_lt] at hgood
    exact hgood.2

theorem Advanced.runs (h : Advanced s py pk run cb minted now s') : s'.callbacks = s.callbacks ∧
    ∃ f : AiRun → AiRun,
      (∀ i, s'.runs.row? i = if pk = i then (s.runs.row? i).map f else s.runs.row? i) ∧
      ∀ r, (f r).sessionId = r.sessionId ∧ ((f r).expectedSeq = r.expectedSeq ∨
        cb.sequence = run.expectedSeq ∧ (f r).expectedSeq = cb.sequence + 1) := by
  cases h with
  | stored _ _ => exact ⟨rfl, id, fun i => by simp, fun r => ⟨rfl, .inl rfl⟩⟩
  | gap err _ _ => exact ⟨rfl, _, Slots.row?_modify, fun r => ⟨rfl, .inl rfl⟩⟩
  | next hseq _ => exact ⟨rfl, _, Slots.row?_modify, fun r => ⟨rfl, .inr ⟨hseq, rfl⟩⟩⟩
  | complete text conv hseq _ _ _ => exact ⟨rfl, _, Slots.row?_modify, fun r => ⟨rfl, .inr ⟨hseq, rfl⟩⟩⟩

theorem session_of_linkRun {sessionId replyTo : String}
    (h : s.linkRun sessionId replyTo = some (pk, run)) : run.sessionId = sessionId := by
  unfold linkRun at h
  split at h
  · cases h
  · obtain ⟨-, hq⟩ := Slots.first?_eq_some h
    simp only [Bool.and_eq_true, decide_eq_true_eq] at hq
    exact hq.1.1.2

theorem Segmented.store (hs : s.Segmented) (haccept : s.acceptCallback py req = .ok (b, fields))
    (hnew : s.seenCallback b fields = false) :
    (s.store (s.storedCallback py req b fields)).Segmented := by
  have hfresh : ∀ i c, s.callbacks.row? i = some c → c.bindingId = b →
      c.sessionId = fields.sessionId → c.replyTo = fields.replyTo → c.sequence ≠ fields.sequence := by
    intro i c hc hb hsession hreply hseq
    rw [seenCallback, Option.isSome_eq_false_iff, Option.isNone_iff_eq_none] at hnew
    have hfalse := Slots.first?_eq_none hnew hc
    simp [hb, hsession, hreply, hseq] at hfalse
  constructor
  · intro i j c d hc hd hb hsession hreply hseq
    unfold ControlPlane.store at hc hd
    rw [Slots.row?_add] at hc hd
    split at hc <;> split at hd
    · omega
    · cases hc
      exact (hfresh j d hd hb.symm hsession.symm hreply.symm hseq.symm).elim
    · cases hd
      exact (hfresh i c hc hb hsession hreply hseq).elim
    · exact hs.unique i j c d hc hd hb hsession hreply hseq
  · intro i c hc
    unfold ControlPlane.store at hc
    rw [Slots.row?_add] at hc
    split at hc
    · cases hc
      exact sequence_of_accept haccept
    · exact hs.positive i c hc
  · intro pk c hc
    rcases segmentOf_store.mp hc with hc | ⟨rfl, hrun, -⟩
    · exact hs.linked pk c hc
    · obtain ⟨linked, hlink, rfl⟩ := Option.map_eq_some_iff.mp hrun
      obtain ⟨pk, run⟩ := linked
      exact ⟨run, (linkRun_some hlink).1, session_of_linkRun hlink⟩
  · intro pk r k hr hpos hk
    obtain ⟨c, hc, hseq⟩ := hs.received pk r k hr hpos hk
    exact ⟨c, segmentOf_store.mpr (.inl hc), hseq⟩

theorem Segmented.advanced (hs : s.Segmented) (h : Advanced s py pk run cb minted now s')
    (hrow : s.runs.row? pk = some run) (hcb : s.SegmentOf pk cb) : s'.Segmented := by
  obtain ⟨hcallbacks, f, hruns, hf⟩ := h.runs
  have hsegment : ∀ pk c, s'.SegmentOf pk c ↔ s.SegmentOf pk c := by
    intro pk c
    unfold SegmentOf
    rw [hcallbacks]
  constructor
  · rw [hcallbacks]
    exact hs.unique
  · rw [hcallbacks]
    exact hs.positive
  · intro i c hc
    obtain ⟨r, hr, hsession⟩ := hs.linked i c ((hsegment i c).mp hc)
    rw [hruns, hr]
    split
    · exact ⟨f r, rfl, (hf r).1.trans hsession⟩
    · exact ⟨r, rfl, hsession⟩
  · intro i r' k hr' hpos hk
    have hold : ∀ r, s.runs.row? i = some r → k < r.expectedSeq →
        ∃ c, s'.SegmentOf i c ∧ c.sequence = k := by
      intro r hr hk
      obtain ⟨c, hc, hseq⟩ := hs.received i r k hr hpos hk
      exact ⟨c, (hsegment i c).mpr hc, hseq⟩
    rw [hruns] at hr'
    split at hr'
    · subst i
      rw [hrow] at hr'
      cases hr'
      rcases (hf run).2 with hsame | ⟨hseq, hnext⟩
      · exact hold run hrow (by omega)
      · by_cases hlast : k = cb.sequence
        · exact ⟨cb, (hsegment pk cb).mpr hcb, hlast.symm⟩
        · exact hold run hrow (by omega)
    · exact hold r' hr' hk

theorem Segmented.callback (hs : s.Segmented) : (s.afterCallback py req).Segmented := by
  rcases (afterCallback_cases : s.afterCallback py req = s ∨ _) with
    hsame | ⟨b, fields, haccept, -, hnew, hcases⟩
  · rw [hsame]
    exact hs
  · have hstored := hs.store haccept hnew
    rcases hcases with ⟨-, hafter⟩ | ⟨pk, run, s', hlink, hadvance, hafter⟩
    · rw [hafter]
      exact hstored
    · rw [hafter]
      refine hstored.advanced (advanced_of_advanceRun hadvance) (linkRun_some hlink).1 ?_
      exact segmentOf_store.mpr (.inr ⟨rfl, by simp [storedCallback, CallbackFields.row, hlink], rfl⟩)

/-- Whatever happens, a run that expects a segment has received all that come before it. -/
theorem Segmented.step (hs : s.Segmented) (a : AiAction) : (aiNext s a).Segmented := by
  cases a with
  | callback py req => exact hs.callback
  | _ => exact hs.onward (aiNext_onward rfl)

end ControlPlane

end TgPlatform
