import TgPlatform.Pipeline.Draining

/-! # The order of planning

The position of an inbox row is the order of its ingest. Every row has the same
`ingest_seq`, so the scan of a drain says nothing about that order. If the
answers keep to it for the rows of each message, and no overlapping drain plans
a row again behind a later one, the rows of a message are planned in order.
-/

namespace TgPlatform

/-- Of two rows of one message in an answer the older one comes first. -/
def AnswersInOrder (db : Database) (order : List RowId) : Prop :=
  order.Pairwise fun i j => ∀ ri rj, db.eventInbox.get? i = some ri →
    db.eventInbox.get? j = some rj → ri.message = rj.message → i < j

/-- Each row of the batch is planned after all older rows of its message and before all newer
ones. -/
def PlannedInOrder (s : System) (rows : List (RowId × EventInbox)) : Prop :=
  ∀ pre i row post, rows = pre ++ (i, row) :: post →
    ∀ j other, s.db.eventInbox.get? j = some other → other.message = row.message →
      (j < i → other.processed = true ∨ j ∈ pre.map Prod.fst) ∧
      (i < j → other.processed = false ∧ j ∉ pre.map Prod.fst)

def PlansInOrder (s : System) (a : Action) (s' : System) : Prop :=
  ∀ w acc rows mapping draw stamp raises,
    DrainedBy s a s' w acc rows mapping draw stamp raises → PlannedInOrder s rows

/-- The scans answer in order, and a row that is processed already is planned again only if no
newer row of its message is processed. -/
structure ScansInOrder (s : System) (a : Action) (s' : System) : Prop where
  answers : ∀ w acc order limit, a = .runner w acc (.drainRead order limit) →
    AnswersInOrder s.db order
  again : ∀ w acc rows mapping draw stamp raises,
    DrainedBy s a s' w acc rows mapping draw stamp raises → ∀ i row stored, (i, row) ∈ rows →
      s.db.eventInbox.get? i = some stored → stored.processed = true →
      ∀ j other, i < j → s.db.eventInbox.get? j = some other → other.message = row.message →
        other.processed = false

/-- The batch is a sorted beginning of what was unprocessed of each message. -/
structure BatchInOrder (db : Database) (batch : List (RowId × EventInbox)) : Prop where
  sorted : batch.Pairwise fun x y => x.2.message = y.2.message → x.1 < y.1
  complete : ∀ j row, (j, row) ∈ batch → ∀ i other, i < j → db.eventInbox.get? i = some other →
    other.message = row.message → other.processed = true ∨ i ∈ batch.map Prod.fst

structure InboxInOrder (s : System) : Prop where
  closed : ∀ i j ri rj, i < j → s.db.eventInbox.get? i = some ri →
    s.db.eventInbox.get? j = some rj → ri.message = rj.message → rj.processed = true →
    ri.processed = true
  batches : ∀ w acc r, (s.workers w).runners acc = some r → BatchInOrder s.db r.pc.batch

theorem batchInOrder_nil (db : Database) : BatchInOrder db [] where
  sorted := List.Pairwise.nil
  complete j row hmem := by cases hmem

/-- An answer in order gives a batch in order, whatever the limit. -/
theorem batchInOrder_read {db : Database} {order : List RowId} (limit : ℕ)
    (hscan : db.UnprocessedOrder order) (horder : AnswersInOrder db order) :
    BatchInOrder db (db.nextUnprocessed order limit) := by
  constructor
  · have htake := List.Pairwise.sublist (List.take_sublist limit order) horder
    refine List.Pairwise.filterMap _ ?_ htake
    intro i j hij x hx y hy hmessage
    obtain ⟨ri, hri, rfl⟩ := Option.map_eq_some_iff.mp hx
    obtain ⟨rj, hrj, rfl⟩ := Option.map_eq_some_iff.mp hy
    exact hij ri rj hri hrj hmessage
  · intro j row hmem i other hlt hi hmessage
    obtain ⟨hj, hrow⟩ := Table.mem_fetch.mp hmem
    by_cases hprocessed : other.processed = true
    · exact Or.inl hprocessed
    · have hiorder : i ∈ order := hscan.mem_iff.mpr ⟨other, hi, by simpa using hprocessed⟩
      rw [← List.take_append_drop limit order] at hiorder
      rcases List.mem_append.mp hiorder with htaken | hdropped
      · exact Or.inr (List.mem_map.mpr ⟨(i, other), Table.mem_fetch.mpr ⟨htaken, hi⟩, rfl⟩)
      · -- the newer row would come first in the answer
        have hpairs := horder
        rw [AnswersInOrder, ← List.take_append_drop limit order] at hpairs
        have hreversed := (List.pairwise_append.mp hpairs).2.2 j hj i hdropped row other hrow hi
          hmessage.symm
        exact absurd hlt (Nat.lt_asymm hreversed)

namespace System

variable {s s' : System} {a : Action}

theorem batchInOrder_step (h : s.step a = some s') {batch : List (RowId × EventInbox)}
    (hstored : ∀ j row, (j, row) ∈ batch → ∃ r, s.db.eventInbox.get? j = some r)
    (hs : BatchInOrder s.db batch) : BatchInOrder s'.db batch := by
  refine ⟨hs.sorted, ?_⟩
  intro j row hmem i other' hlt hi' hmessage
  obtain ⟨r, hr⟩ := hstored j row hmem
  cases hi : s.db.eventInbox.get? i with
  | none =>
    obtain ⟨_, _, _, _, hsize⟩ := inbox_row_new h hi hi'
    have hlen := Nat.lt_trans hlt (Table.get?_lt hr)
    rw [hsize] at hlen
    exact absurd hlen (Nat.lt_irrefl _)
  | some other =>
    obtain ⟨kept, hkept, hcontent, hprocessed⟩ := inbox_row_step h hi
    obtain rfl := Option.some.inj (hi'.symm.trans hkept)
    have hsame : other'.message = other.message := EventInbox.message_of_content hcontent
    exact (hs.complete j row hmem i other hlt hi (hsame.symm.trans hmessage)).imp_left hprocessed

theorem closed_step (h : s.step a = some s') (hstored : BatchesStored s) (hs : InboxInOrder s)
    {i j : RowId} {ri' rj' : EventInbox} (hlt : i < j) (hi' : s'.db.eventInbox.get? i = some ri')
    (hj' : s'.db.eventInbox.get? j = some rj') (hmessage : ri'.message = rj'.message)
    (hprocessed : rj'.processed = true) : ri'.processed = true := by
  cases hj : s.db.eventInbox.get? j with
  | none =>
    obtain ⟨_, c, _, rfl, _⟩ := inbox_row_new h hj hj'
    cases hprocessed
  | some rj =>
    cases hi : s.db.eventInbox.get? i with
    | none =>
      obtain ⟨_, _, _, _, hsize⟩ := inbox_row_new h hi hi'
      have hlen := Nat.lt_trans hlt (Table.get?_lt hj)
      rw [hsize] at hlen
      exact absurd hlen (Nat.lt_irrefl _)
    | some ri =>
      obtain ⟨_, hkepti, hcontenti, hmonoi⟩ := inbox_row_step h hi
      obtain rfl := Option.some.inj (hi'.symm.trans hkepti)
      obtain ⟨_, hkeptj, hcontentj, _⟩ := inbox_row_step h hj
      obtain rfl := Option.some.inj (hj'.symm.trans hkeptj)
      have hsame : ri.message = rj.message := by
        have hmi : ri'.message = ri.message := EventInbox.message_of_content hcontenti
        have hmj : rj'.message = rj.message := EventInbox.message_of_content hcontentj
        rw [← hmi, ← hmj, hmessage]
      by_cases hold : rj.processed = true
      · exact hmonoi (hs.closed i j ri rj hlt hi hj hsame hold)
      · -- the step has processed the newer row, so its batch holds the older one
        rcases inbox_step h with ⟨hinbox, _⟩ | ⟨k, c, hingested⟩ |
          ⟨w, acc, rows, mapping, draw, stamp, raises, hdrained⟩
        · rw [hinbox, hj] at hj'
          exact absurd (Option.some.inj hj' ▸ hprocessed) hold
        · rw [hingested.inbox] at hj'
          obtain rfl := Option.some.inj (hj'.symm.trans (Table.get?_append_of_some hj))
          exact absurd hprocessed hold
        · have hmarked : ∀ {n r r'}, s.db.eventInbox.get? n = some r →
              s'.db.eventInbox.get? n = some r' →
              r' = if n ∈ rows.map Prod.fst then { r with processed := true } else r := by
            intro n r r' hr hr'
            rw [drained_inbox hdrained, hr] at hr'
            exact (Option.some.inj hr').symm
          have hjbatch : j ∈ rows.map Prod.fst := by
            by_contra hout
            rw [hmarked hj hj', if_neg hout] at hprocessed
            exact hold hprocessed
          obtain ⟨⟨j, row⟩, hmem, rfl⟩ := List.mem_map.mp hjbatch
          obtain ⟨r, hr, hpc⟩ := hdrained.runner
          have hbatch : (j, row) ∈ r.pc.batch := by rw [hpc]; exact hmem
          obtain ⟨stored, hstoredRow, hcontent⟩ := hstored w acc r j row hr hbatch
          obtain rfl := Option.some.inj (hj.symm.trans hstoredRow)
          have hrow : ri.message = row.message := by
            rw [hsame, ← hcontent]
            rfl
          rcases (hs.batches w acc r hr).complete j row hbatch i ri hlt hi hrow with hdone | hin
          · exact hmonoi hdone
          · have hinrows : i ∈ rows.map Prod.fst := by
              rw [hpc] at hin
              exact hin
            rw [hmarked hi hi', if_pos hinrows]

theorem inboxInOrder_start (config : WorkerId → WorkerConfig) :
    InboxInOrder (.start config) where
  closed i j ri rj _ hi := by cases hi
  batches w acc r hr := by cases hr

theorem inboxInOrder_step (h : s.step a = some s') (hg : ScansInOrder s a s')
    (hstored : BatchesStored s) (hs : InboxInOrder s) : InboxInOrder s' := by
  constructor
  · intro i j ri' rj' hlt hi' hj' hmessage hprocessed
    exact closed_step h hstored hs hlt hi' hj' hmessage hprocessed
  · intro w acc r' hr'
    have hkeep : ∀ r, (s.workers w).runners acc = some r → BatchInOrder s'.db r.pc.batch := by
      intro r hr
      refine batchInOrder_step h ?_ (hs.batches w acc r hr)
      intro j row hmem
      obtain ⟨stored, hrow, _⟩ := hstored w acc r j row hr hmem
      exact ⟨stored, hrow⟩
    rcases step_runner_cases h hr' with hr | ⟨x, r, e, rfl, hr, he, rfl, hdb⟩ |
      ⟨x, g, _, _, _, rfl⟩
    · exact hkeep r' hr
    · rcases runner_step_batch he with hnil | ⟨hsame, _⟩ | ⟨order, limit, rfl, hscan, hsame, hread⟩
      · rw [hnil]
        exact batchInOrder_nil _
      · rw [hsame]
        exact hkeep r hr
      · rw [hread, hdb, hsame]
        exact batchInOrder_read limit hscan (hg.answers w acc order limit rfl)
    · exact batchInOrder_nil _

theorem plansInOrder_of (hg : ScansInOrder s a s') (hstored : BatchesStored s)
    (hs : InboxInOrder s) : PlansInOrder s a s' := by
  intro w acc rows mapping draw stamp raises hdrained pre i row post hsplit j other hj hmessage
  obtain ⟨r, hr, hpc⟩ := hdrained.runner
  have hbatch : r.pc.batch = rows := by rw [hpc]; rfl
  have horder := hs.batches w acc r hr
  rw [hbatch] at horder
  have hmem : (i, row) ∈ rows := by
    rw [hsplit]
    simp
  obtain ⟨stored, hrow, hcontent⟩ := hstored w acc r i row hr (hbatch ▸ hmem)
  have hsame : stored.message = row.message := by rw [← hcontent]; rfl
  have hsorted := horder.sorted
  rw [hsplit, List.pairwise_append] at hsorted
  constructor
  · intro hlt
    rcases horder.complete i row hmem j other hlt hj hmessage with hdone | hin
    · exact Or.inl hdone
    · obtain ⟨⟨j, batched⟩, hbatched, rfl⟩ := List.mem_map.mp hin
      obtain ⟨stored', hrow', hcontent'⟩ := hstored w acc r j batched hr (hbatch ▸ hbatched)
      obtain rfl := Option.some.inj (hj.symm.trans hrow')
      have hbatchedMessage : row.message = batched.message := by
        rw [← hmessage, ← hcontent']
        rfl
      rw [hsplit, List.mem_append, List.mem_cons] at hbatched
      rcases hbatched with hpre | heq | hpost
      · exact Or.inr (List.mem_map.mpr ⟨(j, batched), hpre, rfl⟩)
      · have hij : j = i := congrArg Prod.fst heq
        rw [hij] at hlt
        exact absurd hlt (Nat.lt_irrefl _)
      · have hafter := (List.pairwise_cons.mp hsorted.2.1).1 _ hpost hbatchedMessage
        exact absurd hlt (Nat.lt_asymm hafter)
  · intro hlt
    constructor
    · by_contra hprocessed
      rw [Bool.not_eq_false] at hprocessed
      have hdone := hs.closed i j stored other hlt hrow hj (hsame.trans hmessage.symm) hprocessed
      have hopen := hg.again w acc rows mapping draw stamp raises hdrained i row stored hmem hrow
        hdone j other hlt hj hmessage
      rw [hprocessed] at hopen
      cases hopen
    · intro hin
      obtain ⟨⟨j, batched⟩, hbatched, rfl⟩ := List.mem_map.mp hin
      have hinrows : (j, batched) ∈ rows := by
        rw [hsplit]
        simp [hbatched]
      obtain ⟨stored', hrow', hcontent'⟩ := hstored w acc r j batched hr (hbatch ▸ hinrows)
      obtain rfl := Option.some.inj (hj.symm.trans hrow')
      have hbatchedMessage : batched.message = row.message := by
        rw [← hmessage, ← hcontent']
        rfl
      have hbefore := hsorted.2.2 _ hbatched (i, row) (by simp) hbatchedMessage
      exact absurd hlt (Nat.lt_asymm hbefore)

end System

end TgPlatform
