import TgPlatform.Rules.SelfFeeding

/-! # Storing routes

The service compares a new route with the active routes of its rule. The
table's unique key compares its source chat and its source topic with those of
all rows of the rule that are not deleted, and a retired row is not deleted. A
row without a topic is never equal to another.
-/

namespace TgPlatform

variable (out : Outside) (caller : Caller)

/-! ## What the service checks -/

/-- The row that a request has checked, and how it is written. -/
inductive CheckedRow
  | new (target : CloneTarget)
  | changed (pk : ℕ) (target : CloneTarget)
  | retired (pk : ℕ)

/-- `update_target` up to its last row. -/
def checkUpdate (ruleId targetId : ℕ) (obj : CloneTargetParam) : Req CheckedRow := do
  let rule ← getRule caller ruleId
  let target ← Txn.read fun s => s.target targetId
  let target ← orRefuse .notFound "目标不存在"
    (target.filter fun t => t.ruleId = ruleId && t.status = .active)
  let srcRef := strip obj.sourceChatId
  let dstRef := strip obj.targetChatId
  let sameSrc := some srcRef = target.sourceChatRef || srcRef = toString target.sourceChatId
  let sameDst := some dstRef = target.targetChatRef || dstRef = toString target.targetChatId
  if sameSrc && sameDst && obj.sourceTopicId = target.sourceTopicId &&
      obj.targetTopicId = target.targetTopicId then
    let filters ← normalizeFilters out rule obj.filters
    Txn.ret (.changed targetId { target with filters := filters.map Json.dict, remark := obj.remark })
  else
    retireRow targetId
    let target ← checkTarget out caller ruleId obj
    Txn.ret (.new target)

/-- `retire_target` up to its write. -/
def checkRetire (ruleId targetId : ℕ) : Req CheckedRow := do
  let _ ← getRule caller ruleId
  let target ← Txn.read fun s => s.target targetId
  let _ ← orRefuse .notFound "目标不存在" (target.filter fun t => t.ruleId = ruleId)
  Txn.ret (.retired targetId)

def CheckedRow.store : CheckedRow → Req Unit
  | .new target => (storeTarget target).map fun _ => ()
  | .changed pk target => Txn.write fun s => s.updateTargetRow pk fun _ => target
  | .retired pk => retireRow pk

/-! ## Each request is its checks and one write -/

variable {out caller}

theorem updateTarget_eq {ruleId targetId : ℕ} {obj : CloneTargetParam} :
    (updateTarget out caller ruleId targetId obj).map (fun _ => ()) =
      (checkUpdate out caller ruleId targetId obj >>= CheckedRow.store) := by
  unfold updateTarget checkUpdate
  simp only [addTarget_eq, Txn.map_eq, Txn.bind_assoc, Txn.ite_bind, Txn.ret_bind, Txn.bind_ret_unit,
    CheckedRow.store]

theorem retireTarget_eq {ruleId targetId : ℕ} :
    retireTarget caller ruleId targetId = (checkRetire caller ruleId targetId >>= CheckedRow.store) := by
  unfold retireTarget checkRetire
  simp only [Txn.bind_assoc, Txn.ret_bind, CheckedRow.store]

/-! ## Sessions of edits -/

/-- An edit of the routes of a rule, with its user and what lies outside of the database. -/
inductive TargetEdit
  | add (out : Outside) (caller : Caller) (ruleId : ℕ) (obj : CloneTargetParam)
  | update (out : Outside) (caller : Caller) (ruleId targetId : ℕ) (obj : CloneTargetParam)
  | retire (caller : Caller) (ruleId targetId : ℕ)

namespace TargetEdit

def handle : TargetEdit → Req Unit
  | .add out caller ruleId obj => (addTarget out caller ruleId obj).map fun _ => ()
  | .update out caller ruleId targetId obj =>
    (updateTarget out caller ruleId targetId obj).map fun _ => ()
  | .retire caller ruleId targetId => retireTarget caller ruleId targetId

def check : TargetEdit → Req CheckedRow
  | .add out caller ruleId obj => (checkTarget out caller ruleId obj).map .new
  | .update out caller ruleId targetId obj => checkUpdate out caller ruleId targetId obj
  | .retire caller ruleId targetId => checkRetire caller ruleId targetId

theorem handle_eq (edit : TargetEdit) : edit.handle = (edit.check >>= CheckedRow.store) := by
  cases edit with
  | add out caller ruleId obj =>
    simp only [handle, check, addTarget_eq, Txn.map_eq, Txn.bind_assoc, Txn.ret_bind, CheckedRow.store]
  | update out caller ruleId targetId obj => exact updateTarget_eq
  | retire caller ruleId targetId => exact retireTarget_eq

def Stored (s : ControlPlane) (edit : TargetEdit) : Prop :=
  ∀ row, edit.check.answer s = .ok row → edit.handle.answer s = .ok ()

end TargetEdit

/-- A row of the rule has the source chat and topic; it may be retired. -/
def ControlPlane.HasSource (s : ControlPlane) (ruleId : ℕ) (chatId topic : ℤ) : Prop :=
  ∃ pk t, s.targets.row? pk = some t ∧ t.deleted = false ∧ t.ruleId = ruleId ∧
    t.sourceChatId = chatId ∧ t.sourceTopicId = some topic

/-- Where a new route has a source topic, no row of the rule has its chat and topic: not another
route of the rule, not one that was retired, and not the one that the update replaces. -/
def TargetEdit.FreshSource (s : ControlPlane) (edit : TargetEdit) : Prop :=
  ∀ target topic, edit.check.answer s = .ok (.new target) → target.sourceTopicId = some topic →
    ¬ s.HasSource target.ruleId target.sourceChatId topic

variable {s : ControlPlane} {ruleId : ℕ} {chatId : ℤ} {topicId : Option ℤ}

theorem sourceTaken_eq_true : s.sourceTaken none ruleId chatId topicId = true ↔
    ∃ topic, topicId = some topic ∧ s.HasSource ruleId chatId topic := by
  unfold ControlPlane.sourceTaken ControlPlane.HasSource ControlPlane.targetsOf
  cases topicId with
  | none => simp
  | some topic =>
    simp only [Option.isSome_some, Bool.true_and, List.any_eq_true, Option.some.injEq,
      exists_eq_left']
    constructor
    · rintro ⟨⟨pk, t⟩, hmem, htaken⟩
      obtain ⟨hrow, hlive⟩ := Slots.mem_where.mp hmem
      simp only [Bool.and_eq_true, decide_eq_true_eq, Bool.not_eq_true'] at hlive htaken
      exact ⟨pk, t, hrow, hlive.2, hlive.1, htaken.1.2, htaken.2⟩
    · rintro ⟨pk, t, hrow, hdeleted, hrule, hchat, htopic⟩
      refine ⟨(pk, t), Slots.mem_where.mpr ⟨hrow, ?_⟩, ?_⟩
      · simp [hdeleted, hrule]
      · simp [hchat, htopic]

theorem hasSource_retire {pk : ℕ} {topic : ℤ} :
    (s.updateTargetRow pk fun t => { t with status := .retired }).HasSource ruleId chatId topic ↔
      s.HasSource ruleId chatId topic := by
  unfold ControlPlane.HasSource ControlPlane.updateTargetRow
  constructor
  · rintro ⟨i, t, hrow, hrest⟩
    rw [Slots.row?_modify] at hrow
    split at hrow
    · obtain ⟨t', hrow', rfl⟩ := Option.map_eq_some_iff.mp hrow
      exact ⟨i, t', hrow', hrest⟩
    · exact ⟨i, t, hrow, hrest⟩
  · rintro ⟨i, t, hrow, hrest⟩
    by_cases hi : pk = i
    · refine ⟨i, { t with status := .retired }, ?_, hrest⟩
      rw [Slots.row?_modify, if_pos hi, hrow]
      rfl
    · refine ⟨i, t, ?_, hrest⟩
      rw [Slots.row?_modify, if_neg hi, hrow]

theorem storeTarget_ok_iff {target : CloneTarget} : (CheckedRow.new target).store.answer s = .ok () ↔
    ∀ topic, target.sourceTopicId = some topic →
      ¬ s.HasSource target.ruleId target.sourceChatId topic := by
  have hanswer : (CheckedRow.new target).store.answer s =
      if s.sourceTaken none target.ruleId target.sourceChatId target.sourceTopicId then
        .error (.uncaught "IntegrityError") else .ok () := by
    rw [CheckedRow.store, Txn.answer_map, storeTarget, Txn.answer_bind]
    dsimp only [Txn.read]
    split <;> rfl
  rw [hanswer]
  cases htaken : s.sourceTaken none target.ruleId target.sourceChatId target.sourceTopicId with
  | true =>
    obtain ⟨topic, htopic, hsource⟩ := sourceTaken_eq_true.mp htaken
    simp only [if_true, reduceCtorEq, false_iff]
    exact fun h => h topic htopic hsource
  | false =>
    simp only [Bool.false_eq_true, if_false, true_iff]
    intro topic htopic hsource
    rw [sourceTaken_eq_true.mpr ⟨topic, htopic, hsource⟩] at htaken
    cases htaken

/-! ## The checks write no source -/

variable {U : Use → Prop}

def SameSources (s s' : ControlPlane) : Prop :=
  ∀ ruleId chatId topic, s'.HasSource ruleId chatId topic ↔ s.HasSource ruleId chatId topic

theorem SameSources.refl (s : ControlPlane) : SameSources s s := fun _ _ _ => Iff.rfl

theorem checkUpdate_sources (hU : ∀ u, U u) {ruleId targetId : ℕ} {obj : CloneTargetParam} :
    Txn.Post (checkUpdate out caller ruleId targetId obj) s U fun _ s' => SameSources s s' := by
  refine .bind (getRule_keeps.mono ?_)
  rintro rule s ⟨-, rfl⟩
  refine .bind (.read (.bind (orRefuse_keeps.mono ?_)))
  rintro target s ⟨-, rfl⟩
  dsimp only
  split
  · refine .bind ((normalizeFilters_keeps hU).mono ?_)
    rintro filters s rfl
    exact .ret (.refl s)
  · refine .bind (.write (.bind ((checkTarget_keeps hU).mono ?_)))
    rintro target s' rfl
    exact .ret fun _ _ _ => hasSource_retire

theorem checkRetire_sources {ruleId targetId : ℕ} :
    Txn.Post (checkRetire caller ruleId targetId) s U fun _ s' => SameSources s s' := by
  refine .bind (getRule_keeps.mono ?_)
  rintro rule s ⟨-, rfl⟩
  refine .bind (.read (.bind (orRefuse_keeps.mono ?_)))
  rintro target s ⟨-, rfl⟩
  exact .ret (.refl s)

theorem TargetEdit.check_sources (edit : TargetEdit) :
    Txn.Post edit.check s (fun _ => True) fun _ s' => SameSources s s' := by
  cases edit with
  | add out caller ruleId obj =>
    refine .map ((checkTarget_keeps fun _ => trivial).mono ?_)
    rintro target s' rfl
    exact .refl _
  | update out caller ruleId targetId obj => exact checkUpdate_sources fun _ => trivial
  | retire caller ruleId targetId => exact checkRetire_sources

/-! ## What is accepted is stored -/

theorem TargetEdit.stored_iff (edit : TargetEdit) : edit.Stored s ↔ edit.FreshSource s := by
  unfold TargetEdit.Stored TargetEdit.FreshSource
  have hsources := edit.check_sources (s := s)
  rw [edit.handle_eq, Txn.answer_bind]
  unfold Txn.answer
  rcases hcheck : (edit.check s).2 with e | ⟨row, s'⟩
  · constructor <;> intro h <;> intros <;> contradiction
  · have hsame := hsources.2 row s' hcheck
    dsimp only [Except.map]
    cases row with
    | new target =>
      constructor
      · rintro h target' topic htarget htopic
        cases htarget
        rw [← hsame]
        exact storeTarget_ok_iff.mp (h _ rfl) topic htopic
      · rintro h row -
        refine storeTarget_ok_iff.mpr ?_
        intro topic htopic
        rw [hsame]
        exact h target topic rfl htopic
    | changed pk target =>
      constructor
      · rintro - target' topic htarget
        cases htarget
      · rintro - row -
        rfl
    | retired pk =>
      constructor
      · rintro - target' topic htarget
        cases htarget
      · rintro - row -
        rfl

/-- In a session of edits the database stores all that the service accepts exactly if no accepted
route has the source chat and source topic of a row that the rule has had before. -/
theorem routes_stored_iff (s : ControlPlane) (edits : List TargetEdit) :
    Txn.Each TargetEdit.handle (fun s edit => edit.Stored s) s edits ↔
      Txn.Each TargetEdit.handle (fun s edit => edit.FreshSource s) s edits := by
  apply Machine.always_iff_of_invariant (I := fun _ => True)
  · intro s edit s' _ _ _
    trivial
  · intro s edit s' _ _
    exact edit.stored_iff
  · trivial

def topicRoute : TargetEdit :=
  .add { ControlPlane.silence with
      join := fun _ _ _ => .ok fun ref => some (.ok (if ref = "src" then -100 else -200)) }
    { id := 1, isSuperuser := true } 0
    { sourceChatId := "src", sourceTopicId := some 7, targetChatId := "dst" }

def retireFirst : TargetEdit := .retire { id := 1, isSuperuser := true } 0 0

/-- A route of a topic cannot be added again once it has been retired. -/
theorem retired_route_blocks :
    ¬ ∀ s edits, Txn.Each TargetEdit.handle (fun s edit => edit.Stored s) s edits := by
  intro h
  have hstored := (h withDraft [topicRoute, retireFirst, topicRoute]).tail.tail.head
  have haccepts : (topicRoute.check.answer
      (retireFirst.handle.commit (topicRoute.handle.commit withDraft))).isOk = true := by
    decide +kernel
  have hfails : (topicRoute.handle.answer
      (retireFirst.handle.commit (topicRoute.handle.commit withDraft))).isOk = false := by
    decide +kernel
  cases hrow : topicRoute.check.answer
      (retireFirst.handle.commit (topicRoute.handle.commit withDraft)) with
  | error e =>
    rw [hrow] at haccepts
    cases haccepts
  | ok row =>
    rw [hstored row hrow] at hfails
    cases hfails

end TgPlatform
