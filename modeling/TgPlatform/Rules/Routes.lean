import TgPlatform.Control.Steps
import TgPlatform.Rules.Service

/-! # The routes a publish stores

Before an enabled rule is published its accounts join the chats of its targets,
and every chat id they are told replaces the stored one. What the targets are
afterwards is a function of the stored targets and of the answers to the joins.
-/

namespace TgPlatform

def chatOf (results : String → Option JoinResult) (ref : String) (stored : ℤ) : ℤ :=
  match results ref with
  | some (.ok chatId) => chatId
  | _ => stored

def Outside.joined (out : Outside) (purpose : ℕ) (account : Option TelegramAccount)
    (refs : List String) : String → Option JoinResult :=
  match account with
  | none => fun _ => none
  | some account =>
    match out.join purpose account refs with
    | .ok results => results
    | .error _ => fun _ => none

variable (out : Outside)

/-- The listening account still has to join the chats of the target. -/
def CloneTarget.stale (rule : CloneRule) (t : CloneTarget) : Bool :=
  t.joinedAccountId ≠ some rule.accountId || (truthy (t.health out)).isSome

/-- A row after the listening account has joined the chats of `t`. -/
def relocate (rule : CloneRule) (results : String → Option JoinResult) (t row : CloneTarget) :
    CloneTarget :=
  { row with
    sourceChatId := chatOf results t.sourceRef row.sourceChatId
    targetChatId := chatOf results t.targetRef row.targetChatId
    joinedAccountId := some rule.accountId, joinedAt := some out.now, healthReason := none }

/-- A row after an account of the pool has joined the target chat of `t`. -/
def enlist (accountId : ℕ) (results : String → Option JoinResult) (t row : CloneTarget) :
    CloneTarget :=
  { row with
    targetChatId := chatOf results t.targetRef row.targetChatId
    joinedAccountIds := if accountId ∈ row.joinedAccountIds then row.joinedAccountIds
      else row.joinedAccountIds ++ [accountId] }

def listenerJoined (dir : Directory) (rule : CloneRule) (targets : List (ℕ × CloneTarget)) :
    List (ℕ × CloneTarget) :=
  let refs := ((targets.filter fun t => t.2.stale out rule).flatMap fun t =>
    [t.2.sourceRef, t.2.targetRef]).eraseDups
  let results := out.joined 0 (dir.account rule.accountId) refs
  targets.map fun t => if t.2.stale out rule then (t.1, relocate out rule results t.2 t.2) else t

def senderJoined (dir : Directory) (targets : List (ℕ × CloneTarget)) (accountId : ℕ) :
    List (ℕ × CloneTarget) :=
  let refs := ((targets.filter fun t => accountId ∉ t.2.joinedAccountIds).map fun t =>
    t.2.targetRef).eraseDups
  let results := out.joined 1 (dir.account accountId) refs
  targets.map fun t =>
    if accountId ∈ t.2.joinedAccountIds then t else (t.1, enlist accountId results t.2 t.2)

/-- The accounts of the pool that do not listen. -/
def CloneRule.extraSenders (rule : CloneRule) : List ℕ :=
  rule.senderPool.filter fun a => a ≠ rule.accountId

/-- The targets of a rule as its accounts find them on joining. -/
def joinedTargets (dir : Directory) (rule : CloneRule) (targets : List (ℕ × CloneTarget)) :
    List (ℕ × CloneTarget) :=
  rule.extraSenders.foldl (senderJoined out dir) (listenerJoined out dir rule targets)

theorem listenerJoined_of_fresh {dir : Directory} {rule : CloneRule}
    {targets : List (ℕ × CloneTarget)} (h : ∀ t ∈ targets, ¬ t.2.stale out rule) :
    listenerJoined out dir rule targets = targets := by
  refine (List.map_congr_left fun t ht => ?_).trans (List.map_id _)
  exact if_neg (h t ht)

theorem senderJoined_of_joined {dir : Directory} {accountId : ℕ} {targets : List (ℕ × CloneTarget)}
    (h : ∀ t ∈ targets, accountId ∈ t.2.joinedAccountIds) :
    senderJoined out dir targets accountId = targets := by
  refine (List.map_congr_left fun t ht => ?_).trans (List.map_id _)
  exact if_pos (h t ht)

theorem foldl_senderJoined_of_joined {dir : Directory} {targets : List (ℕ × CloneTarget)}
    (senders : List ℕ) (h : ∀ a ∈ senders, ∀ t ∈ targets, a ∈ t.2.joinedAccountIds) :
    senders.foldl (senderJoined out dir) targets = targets := by
  induction senders with
  | nil => rfl
  | cons a senders ih =>
    rw [List.foldl_cons, senderJoined_of_joined out (h a List.mem_cons_self)]
    exact ih fun b hb => h b (List.mem_cons_of_mem a hb)

/-! ## The transactions follow the functions -/

variable {out} {s s' : ControlPlane} {U : Use → Prop} {caller : Caller} {rule : CloneRule}
  {results : String → Option JoinResult}

def ControlPlane.rewriteTargets (s : ControlPlane) (g : CloneTarget → CloneTarget → CloneTarget)
    (targets : List (ℕ × CloneTarget)) : ControlPlane :=
  { s with targets := targets.foldl (fun t x => t.modify x.1 (g x.2)) s.targets }

theorem rewriteTargets_eq_foldl {g : CloneTarget → CloneTarget → CloneTarget}
    (targets : List (ℕ × CloneTarget)) (s : ControlPlane) :
    targets.foldl (fun s x => s.updateTargetRow x.1 (g x.2)) s = s.rewriteTargets g targets := by
  induction targets generalizing s with
  | nil => rfl
  | cons x targets ih =>
    rw [List.foldl_cons, ih]
    rfl

structure KeepsActive (g : CloneTarget → CloneTarget → CloneTarget) : Prop where
  ruleId : ∀ t row, (g t row).ruleId = row.ruleId
  status : ∀ t row, (g t row).status = row.status
  deleted : ∀ t row, (g t row).deleted = row.deleted

theorem activeTargets_rewrite {g : CloneTarget → CloneTarget → CloneTarget} (hg : KeepsActive g)
    (s : ControlPlane) (ruleId : ℕ) (r : CloneTarget → Bool) :
    (s.rewriteTargets g ((s.activeTargets ruleId).filter fun t => r t.2)).activeTargets ruleId =
      (s.activeTargets ruleId).map fun x => if r x.2 then (x.1, g x.2 x.2) else x := by
  refine Slots.where_foldl_modify fun t => ?_
  rw [hg.ruleId, hg.status, hg.deleted]

theorem keepsActive_relocate : KeepsActive (relocate out rule results) :=
  ⟨fun _ _ => rfl, fun _ _ => rfl, fun _ _ => rfl⟩

theorem keepsActive_enlist {accountId : ℕ} : KeepsActive (enlist accountId results) :=
  ⟨fun _ _ => rfl, fun _ _ => rfl, fun _ _ => rfl⟩

theorem mem_activeTargets {s : ControlPlane} {ruleId pk : ℕ} {t : CloneTarget} :
    (pk, t) ∈ s.activeTargets ruleId ↔
      s.targets.row? pk = some t ∧ t.ruleId = ruleId ∧ t.status = .active ∧ t.deleted = false := by
  unfold ControlPlane.activeTargets
  rw [Slots.mem_where]
  simp [and_assoc]

theorem mem_activeTargets_map {ruleId : ℕ} {f : CloneTarget → CloneTarget}
    (hrows : ∀ i, s'.targets.row? i = (s.targets.row? i).map f) (hrule : ∀ t, (f t).ruleId = t.ruleId)
    (hstatus : ∀ t, (f t).status = t.status) (hdeleted : ∀ t, (f t).deleted = t.deleted) {pk : ℕ}
    {t' : CloneTarget} : (pk, t') ∈ s'.activeTargets ruleId ↔
      ∃ t, (pk, t) ∈ s.activeTargets ruleId ∧ f t = t' := by
  simp only [mem_activeTargets, hrows, Option.map_eq_some_iff]
  constructor
  · rintro ⟨⟨t, hrow, rfl⟩, h⟩
    rw [hrule, hstatus, hdeleted] at h
    exact ⟨t, ⟨hrow, h⟩, rfl⟩
  · rintro ⟨t, ⟨hrow, h⟩, rfl⟩
    rw [hrule, hstatus, hdeleted]
    exact ⟨⟨t, hrow, rfl⟩, h⟩

theorem mem_activeTargets_rewrite {g : CloneTarget → CloneTarget → CloneTarget} (hg : KeepsActive g)
    {r : CloneTarget → Bool} {ruleId ruleId' pk : ℕ} {t' : CloneTarget} : (pk, t') ∈
      (s.rewriteTargets g ((s.activeTargets ruleId').filter fun t => r t.2)).activeTargets ruleId ↔
        ∃ t, (pk, t) ∈ s.activeTargets ruleId ∧
          (if ruleId = ruleId' ∧ r t = true then g t t else t) = t' := by
  have hrows : ∀ i, (s.rewriteTargets g ((s.activeTargets ruleId').filter fun t =>
    r t.2)).targets.row? i =
      (s.targets.row? i).map fun t =>
        if (t.ruleId = ruleId' && t.status = .active && !t.deleted) && r t then g t t else t := by
    intro i
    unfold ControlPlane.rewriteTargets ControlPlane.activeTargets
    rw [Slots.where_filter]
    exact Slots.row?_rewriteWhere i
  rw [mem_activeTargets_map hrows]
  · apply exists_congr
    intro t
    apply and_congr_right
    intro ht
    obtain ⟨-, rfl, hstatus, hdeleted⟩ := mem_activeTargets.mp ht
    simp [hstatus, hdeleted]
  · intro t
    split
    · exact hg.ruleId t t
    · rfl
  · intro t
    split
    · exact hg.status t t
    · rfl
  · intro t
    split
    · exact hg.deleted t t
    · rfl

def OthersStay (ruleId : ℕ) (s s' : ControlPlane) : Prop :=
  ∀ other, other ≠ ruleId → ∀ x, x ∈ s'.activeTargets other ↔ x ∈ s.activeTargets other

theorem OthersStay.refl {ruleId : ℕ} : OthersStay ruleId s s := fun _ _ _ => Iff.rfl

theorem OthersStay.trans {ruleId : ℕ} {s'' : ControlPlane} (h : OthersStay ruleId s s')
    (h' : OthersStay ruleId s' s'') :
    OthersStay ruleId s s'' :=
  fun other hne x => (h' other hne x).trans (h other hne x)

theorem othersStay_rewrite {ruleId : ℕ} {g : CloneTarget → CloneTarget → CloneTarget}
    (hg : KeepsActive g) {r : CloneTarget → Bool} :
    OthersStay ruleId s (s.rewriteTargets g ((s.activeTargets ruleId).filter fun t => r t.2)) := by
  rintro other hne ⟨pk, t'⟩
  rw [mem_activeTargets_rewrite hg]
  constructor
  · rintro ⟨t, ht, rfl⟩
    rwa [if_neg (fun h => hne h.1)]
  · intro ht
    exact ⟨t', ht, if_neg (fun h => hne h.1)⟩

theorem resolveOrRaise_ok {label ref : String} :
    Txn.Post (Outside.resolveOrRaise results label ref) s U fun chatId s' =>
      s' = s ∧ results ref = some (.ok chatId) := by
  unfold Outside.resolveOrRaise
  cases results ref with
  | none => exact .throw
  | some r =>
    cases r with
    | ok chatId => exact .ret ⟨rfl, rfl⟩
    | failed status => exact .throw

theorem resolveOrRaise_eq {label ref : String} :
    Txn.Post (Outside.resolveOrRaise results label ref) s U fun chatId s' =>
      s' = s ∧ ∀ stored, chatId = chatOf results ref stored := by
  refine resolveOrRaise_ok.mono ?_
  rintro chatId s ⟨rfl, hresult⟩
  exact ⟨rfl, fun _ => by rw [chatOf, hresult]⟩

theorem joinListener_eq {pk : ℕ} {t : CloneTarget} :
    Txn.Post (joinListener out rule results pk t) s U fun _ s' =>
      s' = s.updateTargetRow pk (relocate out rule results t) := by
  refine .bind (resolveOrRaise_eq.mono ?_)
  rintro srcId _ ⟨rfl, hsrc⟩
  refine .bind (resolveOrRaise_eq.mono ?_)
  rintro dstId _ ⟨rfl, hdst⟩
  refine .bind (.read ?_)
  split
  · exact .throw
  · refine .write ?_
    congr 1
    funext row
    rw [relocate, ← hsrc, ← hdst]

theorem joinSender_eq {accountId pk : ℕ} {t : CloneTarget} :
    Txn.Post (joinSender accountId results pk t) s U fun _ s' =>
      s' = s.updateTargetRow pk (enlist accountId results t) := by
  refine .bind (resolveOrRaise_eq.mono ?_)
  rintro dstId _ ⟨rfl, hdst⟩
  refine .write ?_
  congr 1
  funext row
  rw [enlist, ← hdst]

section Joins

variable (hU : ∀ u, U u)

include hU

theorem joinChatRefs_eq {purpose : ℕ} {scope : Scope} {account : TelegramAccount}
    {refs : List String} : Txn.Post (out.joinChatRefs purpose scope account refs) s U
      fun answer s' => s' = s ∧ answer = out.joined purpose (some account) refs := by
  refine .bind (.emit (hU _) (.lift fun answer h => ⟨rfl, ?_⟩))
  simp [Outside.joined, h]

theorem resolveRefs_eq {refs : List String} : Txn.Post (resolveRefs out rule refs) s U
    fun answer s' => s' = s ∧ answer = out.joined 0 (s.dir.account rule.accountId) refs := by
  refine .bind (.read ?_)
  refine .bind (orRefuse_keeps.mono ?_)
  rintro account s ⟨haccount, rfl⟩
  refine (joinChatRefs_eq hU).mono ?_
  rintro answer s ⟨rfl, rfl⟩
  exact ⟨rfl, by rw [show s.dir.account rule.accountId = some account from haccount]⟩

theorem autoJoinListener_eq {ruleId : ℕ} :
    Txn.Post (autoJoinListener out rule ((s.activeTargets ruleId).filter fun t =>
      t.2.stale out rule)) s U fun _ s' =>
        (∃ targets, s' = { s with targets }) ∧ OthersStay ruleId s s' ∧
          s'.activeTargets ruleId = listenerJoined out s.dir rule (s.activeTargets ruleId) := by
  unfold autoJoinListener
  split
  · rename_i hnone
    rw [List.filter_eq_nil_iff] at hnone
    exact .ret ⟨⟨s.targets, rfl⟩, .refl, (listenerJoined_of_fresh out hnone).symm⟩
  · refine .bind ((resolveRefs_eq hU).mono ?_)
    rintro results s ⟨rfl, rfl⟩
    refine (Txn.Post.each_foldl fun t _ s => joinListener_eq).mono ?_
    rintro _ _ rfl
    rw [rewriteTargets_eq_foldl]
    exact ⟨⟨_, rfl⟩, othersStay_rewrite keepsActive_relocate,
      activeTargets_rewrite keepsActive_relocate s ruleId _⟩

def joinPoolAccount (out : Outside) (scope : Scope) (ruleId accountId : ℕ) : Req Unit := do
  let targets ← Txn.read fun s => s.activeTargets ruleId
  let need := targets.filter fun t => accountId ∉ t.2.joinedAccountIds
  if need = [] then Txn.ret ()
  else
    let account ← Txn.read fun s => s.dir.account accountId
    let account ← orRefuse .notFound s!"发送账号 {accountId} 不存在" account
    let refs := (need.map fun t => t.2.targetRef).eraseDups
    let results ← out.joinChatRefs 1 scope account refs
    Txn.each (fun t => joinSender accountId results t.1 t.2) need

theorem joinPoolAccount_eq {scope : Scope} {ruleId accountId : ℕ} :
    Txn.Post (joinPoolAccount out scope ruleId accountId) s U fun _ s' =>
      (∃ targets, s' = { s with targets }) ∧ OthersStay ruleId s s' ∧
        s'.activeTargets ruleId = senderJoined out s.dir (s.activeTargets ruleId) accountId := by
  refine .bind (.read ?_)
  dsimp only
  split
  · rename_i hnone
    rw [List.filter_eq_nil_iff] at hnone
    have hjoined : ∀ t ∈ s.activeTargets ruleId, accountId ∈ t.2.joinedAccountIds :=
      fun t ht => by simpa using hnone t ht
    exact .ret ⟨⟨s.targets, rfl⟩, .refl, (senderJoined_of_joined out hjoined).symm⟩
  · refine .bind (.read (.bind (orRefuse_keeps.mono ?_)))
    rintro account s ⟨haccount, rfl⟩
    refine .bind ((joinChatRefs_eq hU).mono ?_)
    rintro results s ⟨rfl, rfl⟩
    refine (Txn.Post.each_foldl fun t _ s => joinSender_eq).mono ?_
    rintro _ _ rfl
    rw [rewriteTargets_eq_foldl]
    refine ⟨⟨_, rfl⟩, ?_, ?_⟩
    · exact othersStay_rewrite keepsActive_enlist (r := fun t => accountId ∉ t.joinedAccountIds)
    · rw [activeTargets_rewrite keepsActive_enlist s ruleId fun t =>
        decide (accountId ∉ t.joinedAccountIds)]
      refine List.map_congr_left fun t _ => ?_
      have haccount : s.dir.account accountId = some account := haccount
      by_cases hjoined : accountId ∈ t.2.joinedAccountIds <;> simp [hjoined, haccount]

theorem autoJoinPool_eq {scope : Scope} {ruleId : ℕ} (extraSenders : List ℕ) :
    ∀ s, Txn.Post (autoJoinPool out scope ruleId extraSenders) s U fun _ s' =>
      (∃ targets, s' = { s with targets }) ∧ OthersStay ruleId s s' ∧ s'.activeTargets ruleId =
        extraSenders.foldl (senderJoined out s.dir) (s.activeTargets ruleId) := by
  induction extraSenders with
  | nil =>
    intro s
    exact .ret ⟨⟨s.targets, rfl⟩, .refl, rfl⟩
  | cons accountId rest ih =>
    intro s
    have hround : Txn.Post (joinPoolAccount out scope ruleId accountId) s U _ := joinPoolAccount_eq hU
    refine .andThen (hround.mono ?_)
    rintro _ _ ⟨⟨targets, rfl⟩, hstay, htargets⟩
    refine (ih { s with targets }).mono ?_
    rintro _ _ ⟨⟨targets', rfl⟩, hstay', htargets'⟩
    refine ⟨⟨targets', rfl⟩, hstay.trans hstay', ?_⟩
    rw [htargets', htargets]
    rfl

/-- `_auto_join` leaves the targets as their accounts find them. -/
theorem autoJoin_eq {ruleId : ℕ} : Txn.Post (autoJoin out ruleId rule) s U fun _ s' =>
    (∃ targets, s' = { s with targets }) ∧ OthersStay ruleId s s' ∧
      s'.activeTargets ruleId = joinedTargets out s.dir rule (s.activeTargets ruleId) := by
  refine .bind (.read ?_)
  dsimp only
  split
  · rename_i hnone
    rw [Bool.and_eq_true, decide_eq_true_eq, decide_eq_true_eq, List.filter_eq_nil_iff,
      List.filter_eq_nil_iff] at hnone
    obtain ⟨hfresh, hjoined⟩ := hnone
    refine .ret ⟨⟨s.targets, rfl⟩, .refl, ?_⟩
    rw [joinedTargets, listenerJoined_of_fresh out hfresh, foldl_senderJoined_of_joined]
    intro a ha t ht
    have hall := hjoined t ht
    simp only [List.any_eq_true, decide_eq_true_eq, not_exists, not_and, not_not] at hall
    exact hall a ha
  · refine .bind ((autoJoinListener_eq hU).mono ?_)
    rintro _ _ ⟨⟨targets, rfl⟩, hstay, htargets⟩
    refine (autoJoinPool_eq hU _ _).mono ?_
    rintro _ _ ⟨⟨targets', rfl⟩, hstay', htargets'⟩
    refine ⟨⟨targets', rfl⟩, hstay.trans hstay', ?_⟩
    rw [htargets', htargets]
    rfl

end Joins

end TgPlatform
