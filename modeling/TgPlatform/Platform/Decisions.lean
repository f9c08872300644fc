import TgPlatform.Platform.Approvals

/-! # Decisions on approvals

An approval keeps the candidate and the content it was created with, whatever
is decided. Each decision is committed by a call that has read the approval
as pending, but nothing asks for that again at the commit.
-/

namespace TgPlatform

structure Approval.Binds (approval : Approval) (candidate : ReplyCandidate) : Prop where
  version : approval.candidateVersion = candidate.version
  hash : approval.contentHash = candidate.contentHash
  expiry : approval.expiresAt = candidate.expiresAt

theorem Approval.jobKey_inj {a b : Approval} (h : a.jobKey = b.jobKey) : a.uuid = b.uuid := by
  have happend : "approval:" ++ a.uuid = "approval:" ++ b.uuid := by
    simpa [Approval.jobKey, toString] using h
  exact String.append_right_inj _ |>.mp happend

namespace Desk

/-- The approvals somebody has decided on. -/
def decidedIds (d : Desk) : List ApprovalId := d.decided.map Prod.fst

/-- What a call has read is what the rows keep; the approval was pending then. -/
structure ReadBy (hasKey : String → Bool) (d : Desk) (tx : DecideTx) : Prop where
  approval : ∀ {a}, tx.stage.seen = some a → ∃ b, d.approvals.get? tx.request.pk = some b ∧
    b.asCreated = a.asCreated ∧ (b.status = .pending ∨ tx.request.pk ∈ d.decidedIds)
  candidate : ∀ {a c}, tx.stage.read = some (a, c) →
    ∃ c', d.candidates.get? a.candidateId = some c' ∧ c'.asCreated = c.asCreated
  job : ∀ {a c now job}, tx.stage = .queued a c now job → tx.request.verdict = .approved ∧
    (job = none → hasKey a.jobKey = true) ∧
    ∀ j, job = some j → ∃ scope now, j = (a.reply c scope).job now

structure Sound (hasKey : String → Bool) (d : Desk) : Prop where
  tied : ∀ {i a}, d.approvals.get? i = some a →
    ∃ c, d.candidates.get? a.candidateId = some c ∧ a.Binds c
  agree : ∀ {i a c}, d.approvals.get? i = some a →
    d.candidates.get? a.candidateId = some c → c.status = a.status
  own : ∀ {i j a b}, d.approvals.get? i = some a → d.approvals.get? j = some b →
    a.candidateId = b.candidateId → i = j
  uuids : ∀ {i j a b}, d.approvals.get? i = some a → d.approvals.get? j = some b →
    a.uuid = b.uuid → i = j
  candidateUuids : ∀ {i j a b}, d.candidates.get? i = some a → d.candidates.get? j = some b →
    a.uuid = b.uuid → i = j
  decided : ∀ {pk}, pk ∈ d.decidedIds →
    ∃ a, d.approvals.get? pk = some a ∧ a.status ≠ .pending
  calls : ∀ {k tx}, d.calls.get? k = some tx → d.ReadBy hasKey tx

theorem sound_empty (hasKey : String → Bool) : Desk.empty.Sound hasKey where
  tied h := by cases h
  agree h := by cases h
  own h := by cases h
  uuids h := by cases h
  candidateUuids h := by cases h
  decided h := by cases h
  calls h := by cases h

variable {hasKey hasKey' : String → Bool} {d d' : Desk} {x : DeskAction} {job : Option DeliveryJob}
variable {i k pk : ℕ} {a b : Approval} {c : ReplyCandidate} {tx : DecideTx} {stage : DecideStage}
variable {now : Time}

/-! ## What a step keeps -/

theorem Decides.seen (h : Decides tx a now job) : tx.stage.seen = some a := by
  cases h with
  | reject hstage => rw [hstage]; rfl
  | approve hstage => rw [hstage]; rfl

/-- Only a commit on the approval changes it, and then not what it was created with. -/
theorem Moves.approval_kept (h : d.Moves hasKey x d' job) (ha : d.approvals.get? i = some a) :
    ∃ a', d'.approvals.get? i = some a' ∧ a'.asCreated = a.asCreated ∧
      (a' = a ∨ i ∈ d'.decidedIds) := by
  cases h with
  | create hfresh hbind hstatus hjob =>
    exact ⟨a, Table.get?_append_of_some ha, rfl, Or.inl rfl⟩
  | submit request => exact ⟨a, ha, rfl, Or.inl rfl⟩
  | advance htx hadvances => exact ⟨a, ha, rfl, Or.inl rfl⟩
  | @decide k tx approval now job htx hdecides =>
    simp only [Desk.decide, Table.get?_update]
    split
    · rename_i hpk
      subst hpk
      simp only [ha, Option.map_some]
      exact ⟨_, rfl, rfl, Or.inr (by simp [decidedIds])⟩
    · exact ⟨a, ha, rfl, Or.inl rfl⟩

theorem Moves.candidate_kept (h : d.Moves hasKey x d' job) (hc : d.candidates.get? i = some c) :
    ∃ c', d'.candidates.get? i = some c' ∧ c'.asCreated = c.asCreated := by
  cases h with
  | create hfresh hbind hstatus hjob => exact ⟨c, Table.get?_append_of_some hc, rfl⟩
  | submit request => exact ⟨c, hc, rfl⟩
  | advance htx hadvances => exact ⟨c, hc, rfl⟩
  | decide htx hdecides =>
    simp only [Desk.decide, Table.get?_update]
    split
    · rw [hc]
      exact ⟨_, rfl, rfl⟩
    · exact ⟨c, hc, rfl⟩

theorem Moves.approval_cases (h : d.Moves hasKey x d' job) (ha : d'.approvals.get? i = some a) :
    (∃ b, d.approvals.get? i = some b ∧ b.asCreated = a.asCreated) ∨
      (i = d.approvals.size ∧ ∃ c, d'.candidates = d.candidates.insert c ∧
        a.asCreated = d.bind c a.uuid ∧ d.freshUuids c a.uuid = true) := by
  cases h with
  | create hfresh hbind hstatus hjob =>
    rw [Table.get?_insert] at ha
    split at ha
    · rename_i hi
      cases ha
      exact Or.inr ⟨hi, _, rfl, hbind, hfresh⟩
    · exact Or.inl ⟨a, ha, rfl⟩
  | submit request => exact Or.inl ⟨a, ha, rfl⟩
  | advance htx hadvances => exact Or.inl ⟨a, ha, rfl⟩
  | decide htx hdecides =>
    simp only [Desk.decide, Table.get?_update] at ha
    split at ha
    · obtain ⟨b, hb, rfl⟩ := Option.map_eq_some_iff.mp ha
      exact Or.inl ⟨b, hb, rfl⟩
    · exact Or.inl ⟨a, ha, rfl⟩

theorem Moves.candidate_cases (h : d.Moves hasKey x d' job) (hc : d'.candidates.get? i = some c) :
    (∃ c', d.candidates.get? i = some c' ∧ c'.asCreated = c.asCreated) ∨
      (i = d.candidates.size ∧ ¬ d.candidates.any (fun c' => c'.uuid = c.uuid)) := by
  cases h with
  | create hfresh hbind hstatus hjob =>
    rw [Table.get?_insert] at hc
    split at hc
    · rename_i hi
      cases hc
      simp only [freshUuids, Bool.and_eq_true, Bool.not_eq_true'] at hfresh
      exact Or.inr ⟨hi, by simp [hfresh.1]⟩
    · exact Or.inl ⟨c, hc, rfl⟩
  | submit request => exact Or.inl ⟨c, hc, rfl⟩
  | advance htx hadvances => exact Or.inl ⟨c, hc, rfl⟩
  | decide htx hdecides =>
    simp only [Desk.decide, Table.get?_update] at hc
    split at hc
    · obtain ⟨c', hc', rfl⟩ := Option.map_eq_some_iff.mp hc
      exact Or.inl ⟨c', hc', rfl⟩
    · exact Or.inl ⟨c, hc, rfl⟩

theorem Moves.decided_mono (h : d.Moves hasKey x d' job) (hpk : pk ∈ d.decidedIds) :
    pk ∈ d'.decidedIds := by
  cases h with
  | create hfresh hbind hstatus hjob => exact hpk
  | submit request => exact hpk
  | advance htx hadvances => exact hpk
  | decide htx hdecides =>
    simp only [decidedIds, Desk.decide, List.map_append, List.mem_append]
    exact Or.inl hpk

theorem Moves.call_cases (h : d.Moves hasKey x d' job)
    (htx : d'.calls.get? k = some tx) : tx.stage.seen = none ∨
      d.calls.get? k = some tx ∨
      ∃ old, d.calls.get? k = some old ∧ old.request = tx.request ∧ d.Advances hasKey old tx.stage := by
  cases h with
  | create hfresh hbind hstatus hjob => exact Or.inr (Or.inl htx)
  | submit request =>
    rw [Table.get?_insert] at htx
    split at htx
    · cases htx
      exact Or.inl rfl
    · exact Or.inr (Or.inl htx)
  | advance hold hadvances =>
    simp only [setStage, Table.get?_update] at htx
    split at htx
    · rename_i hk
      subst hk
      rw [hold] at htx
      cases htx
      exact Or.inr (Or.inr ⟨_, hold, rfl, hadvances⟩)
    · exact Or.inr (Or.inl htx)
  | decide hold hdecides =>
    simp only [Desk.decide, setStage, Table.get?_update] at htx
    split at htx
    · obtain ⟨old, -, rfl⟩ := Option.map_eq_some_iff.mp htx
      exact Or.inl rfl
    · exact Or.inr (Or.inl htx)

/-! ## The invariant -/

theorem bind_binds (h : a.asCreated = d.bind c a.uuid) : a.Binds c where
  version := by simpa [Approval.asCreated, bind] using congrArg Approval.candidateVersion h
  hash := by simpa [Approval.asCreated, bind] using congrArg Approval.contentHash h
  expiry := by simpa [Approval.asCreated, bind] using congrArg Approval.expiresAt h

theorem binds_of_created {c' : ReplyCandidate} (h : b.Binds c) (ha : b.asCreated = a.asCreated)
    (hc : c'.asCreated = c.asCreated) : a.Binds c' where
  version := (congrArg Approval.candidateVersion ha).symm.trans
    (h.version.trans (congrArg ReplyCandidate.version hc).symm)
  hash := (congrArg Approval.contentHash ha).symm.trans
    (h.hash.trans (congrArg ReplyCandidate.contentHash hc).symm)
  expiry := (congrArg Approval.expiresAt ha).symm.trans
    (h.expiry.trans (congrArg ReplyCandidate.expiresAt hc).symm)

theorem Moves.tied (h : d.Moves hasKey x d' job) (hd : d.Sound hasKey)
    (ha : d'.approvals.get? i = some a) :
    ∃ c, d'.candidates.get? a.candidateId = some c ∧ a.Binds c := by
  rcases h.approval_cases ha with ⟨b, hb, hcreated⟩ | ⟨-, c, hinsert, hbind, -⟩
  · obtain ⟨c, hc, hbinds⟩ := hd.tied hb
    obtain ⟨c', hc', hkept⟩ := h.candidate_kept hc
    have hid : b.candidateId = a.candidateId := (congrArg Approval.candidateId hcreated :)
    rw [← hid]
    exact ⟨c', hc', binds_of_created hbinds hcreated hkept⟩
  · have hid : a.candidateId = d.candidates.size := (congrArg Approval.candidateId hbind :)
    exact ⟨c, by rw [hinsert, hid, Table.get?_insert, if_pos rfl], bind_binds hbind⟩

theorem Moves.own (h : d.Moves hasKey x d' job) (hd : d.Sound hasKey) {j : ℕ}
    (ha : d'.approvals.get? i = some a) (hb : d'.approvals.get? j = some b)
    (hid : a.candidateId = b.candidateId) : i = j := by
  -- the candidate of a new approval is new, that of an old one is not
  have hnew {a b : Approval} {c j} (hbind : a.asCreated = d.bind c a.uuid)
      (hb : d.approvals.get? j = some b) (hid : a.candidateId = b.candidateId) : False := by
    obtain ⟨c, hc, -⟩ := hd.tied hb
    have hsize : a.candidateId = d.candidates.size := (congrArg Approval.candidateId hbind :)
    have hnone : d.candidates.get? b.candidateId = none := by
      rw [← hid, hsize]
      exact Table.get?_size
    rw [hc] at hnone
    cases hnone
  rcases h.approval_cases ha with ⟨a₀, ha₀, hcreated⟩ | ⟨hi, c, -, hbind, -⟩
  · have hida : a₀.candidateId = a.candidateId := (congrArg Approval.candidateId hcreated :)
    rcases h.approval_cases hb with ⟨b₀, hb₀, hcreated'⟩ | ⟨-, c, -, hbind, -⟩
    · have hidb : b₀.candidateId = b.candidateId := (congrArg Approval.candidateId hcreated' :)
      exact hd.own ha₀ hb₀ (hida.trans (hid.trans hidb.symm))
    · exact (hnew hbind ha₀ (hida.trans hid).symm).elim
  · rcases h.approval_cases hb with ⟨b₀, hb₀, hcreated'⟩ | ⟨hj, -⟩
    · have hidb : b₀.candidateId = b.candidateId := (congrArg Approval.candidateId hcreated' :)
      exact (hnew hbind hb₀ (hid.trans hidb.symm)).elim
    · rw [hi, hj]

theorem Moves.agree (h : d.Moves hasKey x d' job) (hd : d.Sound hasKey)
    (ha : d'.approvals.get? i = some a) (hc : d'.candidates.get? a.candidateId = some c) :
    c.status = a.status := by
  cases h with
  | @create _ candidate approval _ hfresh hbind hstatus hjob =>
    simp only [Table.get?_insert] at ha hc
    split at ha
    · cases ha
      have hid : a.candidateId = d.candidates.size := (congrArg Approval.candidateId hbind :)
      rw [if_pos hid] at hc
      cases hc
      exact hstatus.symm
    · obtain ⟨c₀, hc₀, -⟩ := hd.tied ha
      rw [if_neg (Table.get?_lt hc₀).ne] at hc
      exact hd.agree ha hc
  | submit request => exact hd.agree ha hc
  | advance htx hadvances => exact hd.agree ha hc
  | @decide k tx approval now job htx hdecides =>
    obtain ⟨b, hb, hcreated, -⟩ := (hd.calls htx).approval hdecides.seen
    have hid : b.candidateId = approval.candidateId := (congrArg Approval.candidateId hcreated :)
    simp only [Desk.decide, Table.get?_update] at ha hc
    split at ha
    · rename_i hpk
      rw [← hpk, hb] at ha
      cases ha
      rw [if_pos hid.symm] at hc
      obtain ⟨c₀, -, rfl⟩ := Option.map_eq_some_iff.mp hc
      rfl
    · rename_i hpk
      have hother : approval.candidateId ≠ a.candidateId := fun heq =>
        hpk (hd.own hb ha (hid.trans heq))
      rw [if_neg hother] at hc
      exact hd.agree ha hc

theorem fresh_approval (hfresh : d.freshUuids c a.uuid = true) (hb : d.approvals.get? i = some b) :
    a.uuid ≠ b.uuid := by
  intro heq
  simp only [freshUuids, Bool.and_eq_true, Bool.not_eq_true'] at hfresh
  simpa [heq] using Table.any_eq_false.mp hfresh.2 i b hb

theorem Moves.uuids (h : d.Moves hasKey x d' job) (hd : d.Sound hasKey) {j : ℕ}
    (ha : d'.approvals.get? i = some a) (hb : d'.approvals.get? j = some b)
    (huuid : a.uuid = b.uuid) : i = j := by
  rcases h.approval_cases ha with ⟨a₀, ha₀, hcreated⟩ | ⟨hi, c, -, -, hfresh⟩
  · have hua : a₀.uuid = a.uuid := (congrArg Approval.uuid hcreated :)
    rcases h.approval_cases hb with ⟨b₀, hb₀, hcreated'⟩ | ⟨-, c, -, -, hfresh⟩
    · have hub : b₀.uuid = b.uuid := (congrArg Approval.uuid hcreated' :)
      exact hd.uuids ha₀ hb₀ (hua.trans (huuid.trans hub.symm))
    · exact (fresh_approval hfresh ha₀ (hua.trans huuid).symm).elim
  · rcases h.approval_cases hb with ⟨b₀, hb₀, hcreated'⟩ | ⟨hj, -⟩
    · have hub : b₀.uuid = b.uuid := (congrArg Approval.uuid hcreated' :)
      exact (fresh_approval hfresh hb₀ (huuid.trans hub.symm)).elim
    · rw [hi, hj]

theorem Moves.candidateUuids (h : d.Moves hasKey x d' job) (hd : d.Sound hasKey) {j : ℕ}
    {c' : ReplyCandidate} (hc : d'.candidates.get? i = some c)
    (hc' : d'.candidates.get? j = some c') (huuid : c.uuid = c'.uuid) : i = j := by
  have hnew {c c₀ : ReplyCandidate} {j} (hfresh : ¬ d.candidates.any (fun c' => c'.uuid = c.uuid))
      (hc₀ : d.candidates.get? j = some c₀) (huuid : c₀.uuid = c.uuid) : False :=
    hfresh (Table.any_iff.mpr ⟨j, c₀, hc₀, by simp [huuid]⟩)
  rcases h.candidate_cases hc with ⟨c₀, hc₀, hcreated⟩ | ⟨hi, hfresh⟩
  · have hu : c₀.uuid = c.uuid := (congrArg ReplyCandidate.uuid hcreated :)
    rcases h.candidate_cases hc' with ⟨c₁, hc₁, hcreated'⟩ | ⟨-, hfresh⟩
    · have hu' : c₁.uuid = c'.uuid := (congrArg ReplyCandidate.uuid hcreated' :)
      exact hd.candidateUuids hc₀ hc₁ (hu.trans (huuid.trans hu'.symm))
    · exact (hnew hfresh hc₀ (hu.trans huuid)).elim
  · rcases h.candidate_cases hc' with ⟨c₁, hc₁, hcreated'⟩ | ⟨hj, -⟩
    · have hu' : c₁.uuid = c'.uuid := (congrArg ReplyCandidate.uuid hcreated' :)
      exact (hnew hfresh hc₁ (hu'.trans huuid.symm)).elim
    · rw [hi, hj]

theorem Moves.decided (h : d.Moves hasKey x d' job) (hd : d.Sound hasKey)
    (hpk : pk ∈ d'.decidedIds) : ∃ a, d'.approvals.get? pk = some a ∧ a.status ≠ .pending := by
  cases h with
  | create hfresh hbind hstatus hjob =>
    obtain ⟨a, ha, hstatus⟩ := hd.decided hpk
    exact ⟨a, Table.get?_append_of_some ha, hstatus⟩
  | submit request => exact hd.decided hpk
  | advance htx hadvances => exact hd.decided hpk
  | @decide k tx approval now job htx hdecides =>
    have hwritten (v : Verdict) : v.status ≠ .pending := by cases v <;> decide
    simp only [decidedIds, Desk.decide, List.map_append, List.map_cons, List.map_nil,
      List.mem_append, List.mem_singleton] at hpk
    simp only [Desk.decide, Table.get?_update]
    split
    · rename_i heq
      subst heq
      obtain ⟨b, hb, -⟩ := (hd.calls htx).approval hdecides.seen
      rw [hb]
      exact ⟨_, rfl, hwritten _⟩
    · rename_i hne
      exact hd.decided (hpk.resolve_right fun heq => hne heq.symm)

theorem ReadBy.kept (hread : d.ReadBy hasKey tx) (h : d.Moves hasKey x d' job) :
    d'.ReadBy hasKey tx where
  approval hseen := by
    obtain ⟨b, hb, hcreated, hstatus⟩ := hread.approval hseen
    obtain ⟨b', hb', hkept, hsame⟩ := h.approval_kept hb
    refine ⟨b', hb', hkept.trans hcreated, ?_⟩
    rcases hstatus with hpending | hdecided
    · rcases hsame with rfl | hdecided
      · exact Or.inl hpending
      · exact Or.inr hdecided
    · exact Or.inr (h.decided_mono hdecided)
  candidate hcall := by
    obtain ⟨c, hc, hcreated⟩ := hread.candidate hcall
    obtain ⟨c', hc', hkept⟩ := h.candidate_kept hc
    exact ⟨c', hc', hkept.trans hcreated⟩
  job := hread.job

theorem Advances.seen (h : d.Advances hasKey tx stage) (hseen : stage.seen = some a) :
    tx.stage.seen = some a ∨ (d.approvals.get? tx.request.pk = some a ∧ a.status = .pending) := by
  cases h with
  | close => cases hseen
  | check happroval hpending =>
    cases hseen
    exact Or.inr ⟨happroval, hpending⟩
  | verify hstage _ | writeApproval hstage | writeCandidate hstage | findJob hstage _ _
  | queue _ _ hstage _ => exact Or.inl (by rw [hstage]; exact hseen)

theorem Advances.read (h : d.Advances hasKey tx stage) (hread : stage.read = some (a, c)) :
    tx.stage.read = some (a, c) ∨ d.candidates.get? a.candidateId = some c := by
  cases h with
  | close => cases hread
  | check _ _ => cases hread
  | verify hstage hcandidate =>
    cases hread
    exact Or.inr hcandidate
  | writeApproval hstage | writeCandidate hstage | findJob hstage _ _ | queue _ _ hstage _ =>
    exact Or.inl (by rw [hstage]; exact hread)

theorem Advances.queued (h : d.Advances hasKey tx (.queued a c now job)) :
    tx.request.verdict = .approved ∧ (job = none → hasKey a.jobKey = true) ∧
      ∀ j, job = some j → ∃ scope now, j = (a.reply c scope).job now := by
  cases h with
  | findJob hstage hverdict hkey => exact ⟨hverdict, fun _ => hkey, fun j hj => by cases hj⟩
  | queue scope now hstage hverdict =>
    exact ⟨hverdict, fun hj => (by cases hj), fun j hj => ⟨scope, now, (Option.some.inj hj).symm⟩⟩

theorem ReadBy.advance {old : DecideTx} (hread : d.ReadBy hasKey old)
    (h : d.Advances hasKey old tx.stage) (hreq : old.request = tx.request) :
    d.ReadBy hasKey tx where
  approval hseen := by
    rw [← hreq]
    rcases h.seen hseen with hseen | ⟨hget, hpending⟩
    · exact hread.approval hseen
    · exact ⟨_, hget, rfl, Or.inl hpending⟩
  candidate hcall := by
    rcases h.read hcall with hcall | hget
    · exact hread.candidate hcall
    · exact ⟨_, hget, rfl⟩
  job hstage := by
    rw [← hreq]
    exact Advances.queued (hstage ▸ h)

theorem readBy_of_nothing (h : tx.stage.seen = none) : d.ReadBy hasKey tx where
  approval hseen := by rw [h] at hseen; cases hseen
  candidate hcall := by
    have hseen := DecideStage.seen_of_read hcall
    rw [h] at hseen
    cases hseen
  job hstage := by rw [hstage] at h; cases h

theorem ReadBy.mono (hread : d.ReadBy hasKey tx)
    (hkeys : ∀ key, hasKey key = true → hasKey' key = true) : d.ReadBy hasKey' tx where
  approval := hread.approval
  candidate := hread.candidate
  job hstage := by
    obtain ⟨hverdict, hnone, hsome⟩ := hread.job hstage
    exact ⟨hverdict, fun hj => hkeys _ (hnone hj), hsome⟩

theorem Sound.mono (hd : d.Sound hasKey) (hkeys : ∀ key, hasKey key = true → hasKey' key = true) :
    d.Sound hasKey' where
  tied := hd.tied
  agree := hd.agree
  own := hd.own
  uuids := hd.uuids
  candidateUuids := hd.candidateUuids
  decided := hd.decided
  calls htx := (hd.calls htx).mono hkeys

theorem reply_created {a₀ : Approval} {c₀ : ReplyCandidate} (scope : JobScope)
    (ha : a₀.asCreated = a.asCreated) (hc : c₀.asCreated = c.asCreated) :
    a₀.reply c₀ scope = a.reply c scope := by
  calc a₀.reply c₀ scope = a₀.asCreated.reply c₀.asCreated scope := rfl
    _ = a.asCreated.reply c.asCreated scope := by rw [ha, hc]
    _ = a.reply c scope := rfl

theorem Moves.job_approved (h : d.Moves hasKey x d' job) (hd : d.Sound hasKey) {j : DeliveryJob}
    (hj : job = some j) : ∃ i a c scope now, d'.approvals.get? i = some a ∧
      d'.candidates.get? a.candidateId = some c ∧ a.status = .approved ∧
      j = (a.reply c scope).job now := by
  cases h with
  | @create _ candidate approval job hfresh hbind hstatus hjob =>
    rcases hjob with ⟨-, rfl⟩ | ⟨happroved, scope, now, rfl⟩
    · cases hj
    · cases hj
      have hid : approval.candidateId = d.candidates.size :=
        (congrArg Approval.candidateId hbind :)
      refine ⟨d.approvals.size, approval, candidate, scope, now, ?_, ?_, happroved, rfl⟩
      · rw [Table.get?_insert, if_pos rfl]
      · rw [hid, Table.get?_insert, if_pos rfl]
  | submit request => cases hj
  | advance htx hadvances => cases hj
  | @decide k tx a₀ decidedAt job htx hdecides =>
    cases hdecides with
    | reject hstage hverdict => cases hj
    | @approve c₀ _ hstage =>
      obtain ⟨hverdict, -, hsome⟩ := (hd.calls htx).job hstage
      obtain ⟨scope, now, rfl⟩ := hsome j hj
      have hmoves : d.Moves hasKey (.commit k) _ _ := .decide htx (.approve hstage)
      obtain ⟨a, ha, hcreated, -⟩ := (hd.calls htx).approval (by rw [hstage]; rfl)
      obtain ⟨c, hc, hccreated⟩ := (hd.calls htx).candidate (by rw [hstage]; rfl)
      obtain ⟨c', hc', hckept⟩ := hmoves.candidate_kept hc
      have hid : a.candidateId = a₀.candidateId := (congrArg Approval.candidateId hcreated :)
      refine ⟨tx.request.pk, { a with
        status := tx.request.verdict.status
        reviewerId := some tx.request.userId
        decidedAt := some decidedAt
        reason := tx.request.reason }, c', scope, now, ?_, ?_, ?_, ?_⟩
      · rw [Desk.decide, Table.get?_update_self, ha]
        rfl
      · rw [hid]
        exact hc'
      · rw [hverdict]
        rfl
      · rw [reply_created scope (hcreated.symm : a₀.asCreated = a.asCreated)
          (hckept.trans hccreated).symm]
        rfl

theorem Sound.step (hd : d.Sound hasKey) (h : d.step hasKey x = some (d', job)) :
    d'.Sound hasKey := by
  have hmoves := step_moves h
  constructor
  · exact hmoves.tied hd
  · exact hmoves.agree hd
  · exact hmoves.own hd
  · exact hmoves.uuids hd
  · exact hmoves.candidateUuids hd
  · exact hmoves.decided hd
  · intro k tx htx
    rcases hmoves.call_cases htx with hseen | hold | ⟨old, hold, hreq, hadvances⟩
    · exact readBy_of_nothing hseen
    · exact (hd.calls hold).kept hmoves
    · exact ((hd.calls hold).advance hadvances hreq).kept hmoves

end Desk

end TgPlatform
