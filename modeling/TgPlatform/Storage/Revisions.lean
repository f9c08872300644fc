import Mathlib.Data.List.Pairwise
import TgPlatform.Storage.Rows

/-! # Revisions

An edit takes its date as its revision. An edit without a date takes a fold of
the hash of its content, and Python salts that hash anew in every process.
-/

namespace TgPlatform

/-- `hash` of one process on strings: 64 bit, and any value for any string. -/
structure HashSeed where
  hash : String → ℤ
  bounded : ∀ s, -2 ^ 63 ≤ hash s ∧ hash s < 2 ^ 63

/-- What `normalize` makes of an update in the process of a seed. -/
def HashSeed.normalize (seed : HashSeed) (raw : RawUpdate) (accountId : AccountId) : SourceEvent :=
  TgPlatform.normalize raw accountId (seed.hash (raw.contentHash.getD ""))

def HashSeed.revision (seed : HashSeed) (raw : RawUpdate) : ℤ :=
  eventRevision raw.kind raw (seed.hash (raw.contentHash.getD ""))

theorem HashSeed.normalize_revision (seed : HashSeed) (raw : RawUpdate) (accountId : AccountId) :
    (seed.normalize raw accountId).revision = seed.revision raw := rfl

def editsOf (updates : List RawUpdate) : List RawUpdate := updates.filter fun u => u.kind = .edit

theorem mem_editsOf {updates : List RawUpdate} {u : RawUpdate} :
    u ∈ editsOf updates ↔ u ∈ updates ∧ u.kind = .edit := by
  simp [editsOf]

/-! ## Order and separation -/

/-- The revisions of the updates of a message, each observed in any of the processes. -/
structure RevisionsOrder (updates : List RawUpdate) (processes : ℕ → HashSeed) : Prop where
  create_edit : ∀ c ∈ updates, ∀ e ∈ updates, c.kind = .create → e.kind = .edit → ∀ p q,
    (processes p).revision c < (processes q).revision e
  edit_delete : ∀ e ∈ updates, ∀ d ∈ updates, e.kind = .edit → d.kind = .delete → ∀ p q,
    (processes p).revision e < (processes q).revision d
  create_delete : ∀ c ∈ updates, ∀ d ∈ updates, c.kind = .create → d.kind = .delete → ∀ p q,
    (processes p).revision c < (processes q).revision d
  /-- Edits with different content are different events for the inbox. -/
  distinct : ∀ e ∈ editsOf updates, ∀ e' ∈ editsOf updates, e.contentHash ≠ e'.contentHash → ∀ p q,
    (processes p).revision e ≠ (processes q).revision e' ∧
      ∀ a a', ((processes p).normalize e a).dedup ≠ ((processes q).normalize e' a').dedup
  later : (editsOf updates).Pairwise fun e e' =>
    ∀ p q, (processes p).revision e < (processes q).revision e'
  /-- Every process sees one revision of an edit. -/
  same : ∀ e ∈ editsOf updates, ∀ p q, (processes p).revision e = (processes q).revision e

/-- Of two edits the first one is dated before the second; an edit without a date counts as dated 2. -/
def RawUpdate.DatedBefore (u v : RawUpdate) : Prop :=
  match u.editDateTs, v.editDateTs with
  | some ts, some ts' => ts < ts'
  | some ts, none => ts < 2
  | none, some ts' => 2 < ts'
  | none, none => False

/-- The dates tell the edits apart. -/
structure WellDated (updates : List RawUpdate) : Prop where
  /-- An edit that has content has a date. -/
  dated : ∀ e ∈ editsOf updates, e.editDateTs = none → orElse e.contentHash "" = ""
  increasing : (editsOf updates).Pairwise RawUpdate.DatedBefore
  afterCreate : (∃ c ∈ updates, c.kind = .create) →
    ∀ e ∈ editsOf updates, ∀ ts, e.editDateTs = some ts → 1 < ts
  beforeDelete : (∃ d ∈ updates, d.kind = .delete) →
    ∀ e ∈ editsOf updates, ∀ ts, e.editDateTs = some ts → ts < 2 ^ 31 - 1

variable {updates : List RawUpdate} {processes : ℕ → HashSeed} {seed seed' : HashSeed}
  {u e e' : RawUpdate}
  {ts : ℤ}

theorem revision_create (h : u.kind = .create) : seed.revision u = 1 := by
  rw [HashSeed.revision, h]
  rfl

theorem revision_delete (h : u.kind = .delete) : seed.revision u = 2 ^ 31 - 1 := by
  rw [HashSeed.revision, h]
  rfl

theorem revision_dated (h : e.kind = .edit) (hts : e.editDateTs = some ts) : seed.revision e = ts := by
  simp [HashSeed.revision, eventRevision, h, hts]

theorem revision_empty (h : e.kind = .edit) (hts : e.editDateTs = none)
    (hhash : orElse e.contentHash "" = "") : seed.revision e = 2 := by
  simp [HashSeed.revision, eventRevision, h, hts, hhash]

theorem revision_hashed (h : e.kind = .edit) (hts : e.editDateTs = none)
    (hhash : orElse e.contentHash "" ≠ "") :
    seed.revision e = ((seed.hash (e.contentHash.getD "")).natAbs : ℤ) % 2 ^ 31 := by
  simp [HashSeed.revision, eventRevision, h, hts, hhash]

theorem revision_lt_iff (h : e.kind = .edit) (h' : e'.kind = .edit)
    (hdated : e.editDateTs = none → orElse e.contentHash "" = "")
    (hdated' : e'.editDateTs = none → orElse e'.contentHash "" = "") :
    seed.revision e < seed'.revision e' ↔ e.DatedBefore e' := by
  unfold RawUpdate.DatedBefore
  cases hts : e.editDateTs with
  | some ts =>
    rw [revision_dated h hts]
    cases hts' : e'.editDateTs with
    | some ts' => rw [revision_dated h' hts']
    | none => rw [revision_empty h' hts' (hdated' hts')]
  | none =>
    rw [revision_empty h hts (hdated hts)]
    cases hts' : e'.editDateTs with
    | some ts' => rw [revision_dated h' hts']
    | none => simp [revision_empty h' hts' (hdated' hts')]

/-! ## What the revisions tell -/

theorem WellDated.order (h : WellDated updates) (processes : ℕ → HashSeed) :
    RevisionsOrder updates processes := by
  have hlater : (editsOf updates).Pairwise fun e e' => ∀ p q,
      (processes p).revision e < (processes q).revision e' := by
    apply h.increasing.imp_of_mem
    intro e e' he he' hbefore p q
    exact (revision_lt_iff (mem_editsOf.mp he).2 (mem_editsOf.mp he').2 (h.dated e he)
      (h.dated e' he')).mpr
      hbefore
  have hdistinct : ∀ e ∈ editsOf updates, ∀ e' ∈ editsOf updates, e.contentHash ≠ e'.contentHash →
      ∀ p q, (processes p).revision e ≠ (processes q).revision e' := by
    intro e he e' he' hcontent
    have hne : e ≠ e' := fun heq => hcontent (congrArg _ heq)
    have hpairs : (editsOf updates).Pairwise fun e e' => ∀ p q,
        (processes p).revision e ≠ (processes q).revision e' :=
      hlater.imp fun hlt p q => Int.ne_of_lt (hlt p q)
    have : Std.Symm fun e e' : RawUpdate => ∀ p q,
        (processes p).revision e ≠ (processes q).revision e' :=
      ⟨fun _ _ hne p q => (hne q p).symm⟩
    exact hpairs.forall he he' hne
  constructor
  · intro c hc e he hcreate hedit p q
    rw [revision_create hcreate]
    have hmem : e ∈ editsOf updates := mem_editsOf.mpr ⟨he, hedit⟩
    cases hts : e.editDateTs with
    | some ts =>
      rw [revision_dated hedit hts]
      exact h.afterCreate ⟨c, hc, hcreate⟩ e hmem ts hts
    | none =>
      rw [revision_empty hedit hts (h.dated e hmem hts)]
      decide
  · intro e he d hd hedit hdelete p q
    rw [revision_delete hdelete]
    have hmem : e ∈ editsOf updates := mem_editsOf.mpr ⟨he, hedit⟩
    cases hts : e.editDateTs with
    | some ts =>
      rw [revision_dated hedit hts]
      exact h.beforeDelete ⟨d, hd, hdelete⟩ e hmem ts hts
    | none =>
      rw [revision_empty hedit hts (h.dated e hmem hts)]
      decide
  · intro c _ d _ hcreate hdelete p q
    rw [revision_create hcreate, revision_delete hdelete]
    decide
  · intro e he e' he' hcontent p q
    refine ⟨hdistinct e he e' he' hcontent p q, ?_⟩
    intro a a' hdedup
    exact hdistinct e he e' he' hcontent p q (congrArg (fun d : DedupKey => d.2.2) hdedup)
  · exact hlater
  · intro e he p q
    have hedit := (mem_editsOf.mp he).2
    cases hts : e.editDateTs with
    | some ts => rw [revision_dated hedit hts, revision_dated hedit hts]
    | none =>
      rw [revision_empty hedit hts (h.dated e he hts), revision_empty hedit hts (h.dated e he hts)]

def constantSeed (n : ℤ) (h : -2 ^ 63 ≤ n ∧ n < 2 ^ 63) : HashSeed := ⟨fun _ => n, fun _ => h⟩

def zeroSeed : HashSeed := constantSeed 0 (by decide)

def oneSeed : HashSeed := constantSeed 1 (by decide)

def twoSeeds (p : ℕ) : HashSeed := if p = 0 then zeroSeed else oneSeed

theorem dated_of_order (h : RevisionsOrder updates twoSeeds) (he : e ∈ editsOf updates)
    (hts : e.editDateTs = none) : orElse e.contentHash "" = "" := by
  by_contra hhash
  have hsame := h.same e he 0 1
  have hedit := (mem_editsOf.mp he).2
  rw [revision_hashed hedit hts hhash, revision_hashed hedit hts hhash] at hsame
  have hzero : (twoSeeds 0).hash (e.contentHash.getD "") = 0 := rfl
  have hone : (twoSeeds 1).hash (e.contentHash.getD "") = 1 := rfl
  rw [hzero, hone] at hsame
  exact absurd hsame (by decide)

theorem wellDated_of_order (h : RevisionsOrder updates twoSeeds) : WellDated updates := by
  constructor
  · intro e he hts
    exact dated_of_order h he hts
  · apply h.later.imp_of_mem
    intro e e' he he' hlt
    exact (revision_lt_iff (mem_editsOf.mp he).2 (mem_editsOf.mp he').2 (dated_of_order h he)
      (dated_of_order h he')).mp (hlt 0 0)
  · rintro ⟨c, hc, hcreate⟩ e he ts hts
    obtain ⟨he, hedit⟩ := mem_editsOf.mp he
    have hlt := h.create_edit c hc e he hcreate hedit 0 0
    rwa [revision_create hcreate, revision_dated hedit hts] at hlt
  · rintro ⟨d, hd, hdelete⟩ e he ts hts
    obtain ⟨he, hedit⟩ := mem_editsOf.mp he
    have hlt := h.edit_delete e he d hd hedit hdelete 0 0
    rwa [revision_delete hdelete, revision_dated hedit hts] at hlt

/-- The revisions of the updates of a message are in order in any processes exactly if the edits
are told apart by their dates. -/
theorem revisions_order_iff (updates : List RawUpdate) :
    (∀ processes, RevisionsOrder updates processes) ↔ WellDated updates := by
  constructor
  · intro h
    exact wellDated_of_order (h twoSeeds)
  · intro h processes
    exact h.order processes

def undatedEdit : RawUpdate where
  kind := .edit
  chatId := 5
  messageId := 3
  chatClass := .broadcast
  contentHash := some "e3b0c442"

theorem undated_edit_has_two_revisions : ¬ ∀ updates processes, RevisionsOrder updates processes := by
  intro h
  have hsame := (h [undatedEdit] twoSeeds).same undatedEdit (by decide) 0 1
  exact absurd hsame (by decide)

end TgPlatform
