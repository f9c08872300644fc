import TgPlatform.Worker.Commands

/-! # The order of commands

A process applies a command id at most once. The order of the commands, their
generations and the repetition of a lost acknowledgement are left to what the
pulls happen to return: they are right in every run whose pulls are sorted,
current, and free of commands the process has applied before.
-/

namespace TgPlatform

/-- The database side of the protocol: the rows, the clock and the applications so far. -/
structure Ledger where
  commands : CommandTable
  clock : Option Time
  applied : List Application

def CommandSystem.ledger (s : CommandSystem) : Ledger := ⟨s.commands, s.clock, s.applied⟩

/-- The deadline had passed at the clock's latest reading. -/
def CommandRow.Expired (row : CommandRow) (clock : Option Time) : Prop :=
  ∃ t, clock = some t ∧ row.alive t = false

/-- Made by incarnation `n` of process `w`. -/
def Application.By (e : Application) (w : WorkerId) (n : ℕ) : Prop :=
  e.workerId = w ∧ e.incarnation = n

namespace Ledger

/-- No pull of a process that has seen `seen` will return the row again as news. -/
def Settled (l : Ledger) (seen : List ℕ) (id : ℕ) (row : CommandRow) : Prop :=
  id ∈ seen ∨ row.status ≠ .pending ∨ row.Expired l.clock

def Applied (l : Ledger) (id : ℕ) : Prop := ∃ e ∈ l.applied, e.id = id

/-- Time goes on, rows are added and acknowledged, commands are applied. -/
structure Extends (l l' : Ledger) : Prop where
  row : ∀ id row, l.commands.get? id = some row → ∃ row', l'.commands.get? id = some row' ∧
    row'.accountId = row.accountId ∧ row'.pending id = row.pending id ∧
    row'.deadline = row.deadline ∧ (row'.status = .pending → row.status = .pending)
  clock : ∀ t, l.clock = some t → ∃ t', l'.clock = some t' ∧ t ≤ t'
  applied : ∀ e ∈ l.applied, e ∈ l'.applied

structure Sound (l : Ledger) : Prop where
  rows : ∀ e ∈ l.applied, ∃ row, l.commands.get? e.id = some row ∧ row.accountId = e.accountId
  acked : ∀ id row, l.commands.get? id = some row → row.status ≠ .pending → l.Applied id
  behind : ∀ e ∈ l.applied, ∀ id < e.id, ∀ row, l.commands.get? id = some row →
    row.accountId = e.accountId → l.Applied id ∨ row.Expired l.clock

end Ledger

/-- The rest of a sorted pull: everything issued earlier is settled or still ahead in it. -/
structure Batch.Sound (b : Batch) (w : WorkerId) (p : Poller) (l : Ledger) : Prop where
  rows : ∀ c ∈ b.rest, ∃ row, l.commands.get? c.id = some row ∧ row.accountId = b.accountId ∧
    c = row.pending c.id
  sorted : b.rest.Pairwise fun c c' => c.id < c'.id
  fresh : ∀ c ∈ b.rest, c.id ∉ p.seen
  ahead : ∀ c ∈ b.rest, ∀ e ∈ l.applied, e.By w p.incarnation → e.accountId = b.accountId →
    e.id < c.id
  behind : ∀ c ∈ b.rest, ∀ id < c.id, ∀ row, l.commands.get? id = some row →
    row.accountId = b.accountId → l.Settled p.seen id row ∨ ∃ c' ∈ b.rest, c'.id = id
  unsent : ∀ id outcome, b.unsent = some (id, outcome) → outcome.1 ≠ .pending ∧ l.Applied id

structure Poller.Sound (p : Poller) (w : WorkerId) (l : Ledger) : Prop where
  seen : ∀ id, id ∈ p.seen ↔ ∃ e ∈ l.applied, e.By w p.incarnation ∧ e.id = id
  past : ∀ e ∈ l.applied, e.workerId = w → e.incarnation ≤ p.incarnation
  behind : ∀ e ∈ l.applied, e.By w p.incarnation → ∀ id < e.id, ∀ row,
    l.commands.get? id = some row → row.accountId = e.accountId → l.Settled p.seen id row
  batch : ∀ b, p.batch = some b → b.Sound w p l

structure FollowsProtocol (s : CommandSystem) (a : CommandAction) (s' : CommandSystem) : Prop where
  once : ∀ e, s'.applied = s.applied ++ [e] → ∀ e' ∈ s.applied,
    e'.By e.workerId e.incarnation → e'.id ≠ e.id
  fenced : ∀ e, s'.applied = s.applied ++ [e] → ∀ row g, s.commands.get? e.id = some row →
    row.expectedGeneration = some g →
    (s.system.db.accountLeases e.accountId).map AccountLease.generation = some g
  /-- In one process, and over all processes unless it is not the command's first application. -/
  ordered : ∀ e, s'.applied = s.applied ++ [e] → ∀ e' ∈ s.applied, e'.accountId = e.accountId →
    (e'.By e.workerId e.incarnation ∨ ∀ e'' ∈ s.applied, e''.id ≠ e.id) → e'.id < e.id
  /-- A command met again leads to an acknowledgement with its recorded outcome. -/
  reported : ∀ w answers b cmd rest e, a = .next w answers → (s.pollers w).batch = some b →
    b.rest = cmd :: rest → e ∈ s.applied → e.By w (s.pollers w).incarnation → e.id = cmd.id →
    ∃ b', (s'.pollers w).batch = some b' ∧ b'.unsent = some (cmd.id, e.outcome)

/-- The platform's clock does not go back; a pull returns its commands in the order of their
issue, and none that the process has applied; an unseen command is taken up before its deadline
and with the generation it expects. -/
structure PullsInOrder (s : CommandSystem) (a : CommandAction) (_ : CommandSystem) : Prop where
  clock : ∀ now, (∃ obj uuid, a = .issue obj uuid now) ∨ (∃ w acc order, a = .pull w acc order now) →
    ∀ t, s.clock = some t → t ≤ now
  sorted : ∀ w acc order now, a = .pull w acc order now →
    (s.commands.getPending order now).Pairwise fun c c' => c.id < c'.id
  news : ∀ w acc order now, a = .pull w acc order now →
    ∀ c ∈ s.commands.getPending order now, c.id ∉ (s.pollers w).seen
  current : ∀ w answers b cmd rest, a = .next w answers → (s.pollers w).batch = some b →
    b.rest = cmd :: rest → cmd.id ∉ (s.pollers w).seen →
    (∀ g, cmd.expectedGeneration = some g →
      (s.system.db.accountLeases b.accountId).map AccountLease.generation = some g) ∧
    ∀ row, s.commands.get? cmd.id = some row → ¬ row.Expired s.clock

variable {s s' : CommandSystem} {a : CommandAction} {l l' : Ledger} {w : WorkerId} {p : Poller}
  {id : ℕ} {row : CommandRow}

theorem CommandRow.Expired.mono {row' : CommandRow} (h : row.Expired l.clock) (hl : l.Extends l')
    (hdeadline : row'.deadline = row.deadline) : row'.Expired l'.clock := by
  obtain ⟨t, ht, hexpired⟩ := h
  obtain ⟨t', ht', hle⟩ := hl.clock t ht
  refine ⟨t', ht', ?_⟩
  unfold alive at hexpired ⊢
  rw [hdeadline]
  cases hd : row.deadline with
  | none => simp [hd] at hexpired
  | some d =>
    simp only [hd, Option.all_some, decide_eq_false_iff_not, not_lt] at hexpired ⊢
    exact hexpired.trans hle

theorem mem_getPending {order : List ℕ} {now : Time} {c : PendingCommand} {t : CommandTable} :
    c ∈ t.getPending order now ↔ ∃ id row, id ∈ order ∧ t.get? id = some row ∧
      row.alive now = true ∧ row.pending id = c := by
  simp only [CommandTable.getPending, List.mem_map, List.mem_filter, Prod.exists, Table.mem_fetch]
  constructor
  · rintro ⟨id, row, ⟨⟨hid, hrow⟩, halive⟩, rfl⟩
    exact ⟨id, row, hid, hrow, halive, rfl⟩
  · rintro ⟨id, row, hid, hrow, halive, rfl⟩
    exact ⟨id, row, ⟨⟨hid, hrow⟩, halive⟩, rfl⟩

theorem applyCommand_outcome (wk : Worker) (db : Database) (acc : AccountId) (hosted : Hosted)
    (cmd : PendingCommand) (answers : CommandAnswers) :
    (wk.applyCommand db acc hosted cmd answers).2.2.1 ≠ .pending := by
  unfold Worker.applyCommand
  split <;> (try split) <;> (try split) <;> simp

namespace Ledger

namespace Extends

theorem refl (l : Ledger) : l.Extends l :=
  ⟨fun _ row hrow => ⟨row, hrow, rfl, rfl, rfl, fun h => h⟩, fun t ht => ⟨t, ht, le_rfl⟩,
    fun _ he => he⟩

theorem old (h : l.Extends l') {row' : CommandRow} (hrow' : l'.commands.get? id = some row')
    (hid : id < l.commands.size) : ∃ row, l.commands.get? id = some row ∧
      row'.accountId = row.accountId ∧ row'.deadline = row.deadline ∧
      (row'.status = .pending → row.status = .pending) := by
  have hrow : l.commands.get? id = some l.commands.rows[id] := List.getElem?_eq_getElem hid
  obtain ⟨row'', hrow'', hacc, _, hdeadline, hstatus⟩ := h.row id _ hrow
  obtain rfl := Option.some.inj (hrow''.symm.trans hrow')
  exact ⟨_, hrow, hacc, hdeadline, hstatus⟩

theorem settled (h : l.Extends l') {seen : List ℕ} {row' : CommandRow}
    (hsettled : l.Settled seen id row) (hdeadline : row'.deadline = row.deadline)
    (hstatus : row'.status = .pending → row.status = .pending) : l'.Settled seen id row' := by
  rcases hsettled with hseen | hdone | hexpired
  · exact Or.inl hseen
  · exact Or.inr (Or.inl fun hpending => hdone (hstatus hpending))
  · exact Or.inr (Or.inr (hexpired.mono h hdeadline))

theorem applied_id (h : l.Extends l') (ha : l.Applied id) : l'.Applied id := by
  obtain ⟨e, he, hid⟩ := ha
  exact ⟨e, h.applied e he, hid⟩

end Extends

end Ledger

theorem Poller.Sound.extend (h : p.Sound w l) (hrows : l.Sound) (hl : l.Extends l')
    (hothers : ∀ e ∈ l'.applied, e ∈ l.applied ∨ e.workerId ≠ w) : p.Sound w l' := by
  have hown : ∀ e ∈ l'.applied, e.By w p.incarnation → e ∈ l.applied := by
    intro e he hby
    exact (hothers e he).resolve_right fun hne => hne hby.1
  constructor
  · intro id
    rw [h.seen id]
    constructor
    · rintro ⟨e, he, hby, hid⟩
      exact ⟨e, hl.applied e he, hby, hid⟩
    · rintro ⟨e, he, hby, hid⟩
      exact ⟨e, hown e he hby, hby, hid⟩
  · intro e he hw
    exact h.past e ((hothers e he).resolve_right fun hne => hne hw) hw
  · intro e he hby id hid row' hrow' hacc
    obtain ⟨r, hr, _⟩ := hrows.rows e (hown e he hby)
    obtain ⟨row, hrow, hacc', hdeadline, hstatus⟩ := hl.old hrow' (hid.trans (Table.get?_lt hr))
    exact hl.settled (h.behind e (hown e he hby) hby id hid row hrow (hacc'.symm.trans hacc))
      hdeadline hstatus
  · intro b hb
    have hbatch := h.batch b hb
    constructor
    · intro c hc
      obtain ⟨row, hrow, hacc, hpending⟩ := hbatch.rows c hc
      obtain ⟨row', hrow', hacc', hpending', _⟩ := hl.row _ row hrow
      exact ⟨row', hrow', hacc'.trans hacc, hpending.trans hpending'.symm⟩
    · exact hbatch.sorted
    · exact hbatch.fresh
    · intro c hc e he hby
      exact hbatch.ahead c hc e (hown e he hby) hby
    · intro c hc id hid row' hrow' hacc
      obtain ⟨r, hr, _⟩ := hbatch.rows c hc
      obtain ⟨row, hrow, hacc', hdeadline, hstatus⟩ := hl.old hrow' (hid.trans (Table.get?_lt hr))
      exact (hbatch.behind c hc id hid row hrow (hacc'.symm.trans hacc)).imp
        (fun hsettled => hl.settled hsettled hdeadline hstatus) fun hrest => hrest
    · intro id outcome hunsent
      obtain ⟨hfinal, happlied⟩ := hbatch.unsent id outcome hunsent
      exact ⟨hfinal, hl.applied_id happlied⟩

/-- Steps that apply nothing keep the ledger sound if they acknowledge only what was applied. -/
theorem Ledger.Sound.extend (h : l.Sound) (hl : l.Extends l')
    (happlied : ∀ e ∈ l'.applied, e ∈ l.applied)
    (hacked : ∀ id row, l'.commands.get? id = some row → row.status ≠ .pending → l'.Applied id) :
    l'.Sound := by
  constructor
  · intro e he
    obtain ⟨row, hrow, hacc⟩ := h.rows e (happlied e he)
    obtain ⟨row', hrow', hacc', _⟩ := hl.row _ row hrow
    exact ⟨row', hrow', hacc'.trans hacc⟩
  · exact hacked
  · intro e he id hid row' hrow' hacc
    obtain ⟨r, hr, _⟩ := h.rows e (happlied e he)
    obtain ⟨row, hrow, hacc', hdeadline, _⟩ := hl.old hrow' (hid.trans (Table.get?_lt hr))
    exact (h.behind e (happlied e he) id hid row hrow (hacc'.symm.trans hacc)).imp hl.applied_id
      fun hexpired => hexpired.mono hl hdeadline

theorem Ledger.extends_clock {now : Time} (hclock : ∀ t, l.clock = some t → t ≤ now) :
    l.Extends { l with clock := some now } :=
  ⟨fun _ row hrow => ⟨row, hrow, rfl, rfl, rfl, fun h => h⟩,
    fun t ht => ⟨now, rfl, hclock t ht⟩, fun _ he => he⟩

theorem Ledger.extends_insert {now : Time} {row : CommandRow}
    (hclock : ∀ t, l.clock = some t → t ≤ now) :
    l.Extends { l with commands := Table.insert l.commands row, clock := some now } := by
  refine ⟨fun id row' hrow' => ⟨row', ?_, rfl, rfl, rfl, fun h => h⟩,
    fun t ht => ⟨now, rfl, hclock t ht⟩, fun _ he => he⟩
  exact Table.get?_append_of_some hrow'

theorem CommandTable.get?_ack {t : CommandTable} {status : CommandStatus} {result : String}
    (i : ℕ) : (t.ack id status result).get? i =
      if id = i then (t.get? i).map fun row => { row with status, result := some result }
      else t.get? i :=
  Table.get?_update _ _

theorem Ledger.extends_ack {status : CommandStatus} {result : String} (hstatus : status ≠ .pending) :
    l.Extends { l with commands := l.commands.ack id status result } := by
  refine ⟨fun i row hrow => ?_, fun t ht => ⟨t, ht, le_rfl⟩, fun _ he => he⟩
  dsimp only
  rw [CommandTable.get?_ack]
  split_ifs
  · exact ⟨{ row with status, result := some result }, by rw [hrow]; rfl, rfl, rfl, rfl,
      fun hpending => absurd hpending hstatus⟩
  · exact ⟨row, hrow, rfl, rfl, rfl, fun h => h⟩

/-! ## One step -/

/-- The ledger and the memory of every process fit together. -/
structure Polled (s : CommandSystem) : Prop where
  ledger : s.ledger.Sound
  pollers : ∀ w, (s.pollers w).Sound w s.ledger

theorem Poller.Sound.restart (h : p.Sound w l) : p.restart.Sound w l := by
  have hnone : ∀ e ∈ l.applied, ¬ e.By w (p.incarnation + 1) := by
    rintro e he ⟨hw, hn⟩
    have := h.past e he hw
    omega
  constructor
  · intro id
    constructor
    · intro hid
      cases hid
    · rintro ⟨e, he, hby, _⟩
      exact absurd hby (hnone e he)
  · intro e he hw
    exact (h.past e he hw).trans (Nat.le_succ _)
  · intro e he hby
    exact absurd hby (hnone e he)
  · intro b hb
    cases hb

theorem Poller.Sound.pull (h : p.Sound w l) {acc : AccountId} {order : List ℕ} {now : Time}
    (hosted : Hosted) (hclock : l.clock = some now)
    (horder : order.Perm (l.commands.select (CommandTable.pendingOf acc)))
    (hsorted : (l.commands.getPending order now).Pairwise fun c c' => c.id < c'.id)
    (hnews : ∀ c ∈ l.commands.getPending order now, c.id ∉ p.seen) :
    Poller.Sound { p with batch := some {
      accountId := acc, hosted, rest := l.commands.getPending order now } } w l := by
  have hmem : ∀ id, id ∈ order ↔ ∃ row, l.commands.get? id = some row ∧ row.accountId = acc ∧
      row.status = .pending := by
    intro id
    rw [horder.mem_iff, Table.mem_select]
    simp [CommandTable.pendingOf]
  refine ⟨h.seen, h.past, h.behind, ?_⟩
  intro b hb
  obtain rfl := Option.some.inj hb
  constructor
  · intro c hc
    obtain ⟨id, row, hid, hrow, _, rfl⟩ := mem_getPending.mp hc
    obtain ⟨row', hrow', hacc, _⟩ := (hmem id).mp hid
    obtain rfl := Option.some.inj (hrow.symm.trans hrow')
    exact ⟨row, hrow, hacc, rfl⟩
  · exact hsorted
  · exact hnews
  · intro c hc e he hby hacc
    have hfresh := hnews c hc
    obtain ⟨id, row, hid, hrow, halive, rfl⟩ := mem_getPending.mp hc
    obtain ⟨row', hrow', hacc', hpending⟩ := (hmem id).mp hid
    obtain rfl := Option.some.inj (hrow.symm.trans hrow')
    rcases Nat.lt_trichotomy e.id id with hlt | heq | hgt
    · exact hlt
    · exact absurd ((h.seen id).mpr ⟨e, he, hby, heq⟩) hfresh
    · rcases h.behind e he hby id hgt row hrow (hacc'.trans hacc.symm) with hseen | hdone |
        ⟨t, ht, hexpired⟩
      · exact absurd hseen hfresh
      · exact absurd hpending hdone
      · obtain rfl := Option.some.inj (hclock.symm.trans ht)
        rw [halive] at hexpired
        cases hexpired
  · intro c _ id _ row hrow hacc
    by_cases hpending : row.status = .pending
    · cases halive : row.alive now with
      | true =>
        refine Or.inr ⟨row.pending id, mem_getPending.mpr ⟨id, row, ?_, hrow, halive, rfl⟩, rfl⟩
        exact (hmem id).mpr ⟨row, hrow, hacc, hpending⟩
      | false => exact Or.inl (Or.inr (Or.inr ⟨now, hclock, halive⟩))
    · exact Or.inl (Or.inr (Or.inl hpending))
  · intro id outcome hunsent
    cases hunsent

section Apply

variable {b : Batch} {cmd : PendingCommand} {rest : List PendingCommand}
  {outcome : CommandOutcome}

theorem Batch.Sound.settled_head (h : b.Sound w p l) (hrest : b.rest = cmd :: rest)
    (hid : id < cmd.id) (hrow : l.commands.get? id = some row) (hacc : row.accountId = b.accountId) :
    l.Settled p.seen id row := by
  have hsorted := h.sorted
  rw [hrest, List.pairwise_cons] at hsorted
  rcases h.behind cmd (by simp [hrest]) id hid row hrow hacc with hsettled | ⟨c, hc, rfl⟩
  · exact hsettled
  · rw [hrest, List.mem_cons] at hc
    rcases hc with rfl | hc
    · omega
    · have := hsorted.1 c hc
      omega

theorem Ledger.Sound.apply (h : l.Sound) (hp : p.Sound w l) (hb : p.batch = some b)
    (hrest : b.rest = cmd :: rest) :
    Ledger.Sound { l with
      applied := l.applied ++ [⟨w, p.incarnation, b.accountId, cmd.id, outcome⟩] } := by
  have hbatch := hp.batch b hb
  have hl : l.Extends { l with
      applied := l.applied ++ [⟨w, p.incarnation, b.accountId, cmd.id, outcome⟩] } :=
    ⟨(Ledger.Extends.refl l).row, (Ledger.Extends.refl l).clock,
      fun e he => List.mem_append_left _ he⟩
  constructor
  · intro e he
    rcases List.mem_append.mp he with he | he
    · exact h.rows e he
    · obtain rfl := List.mem_singleton.mp he
      obtain ⟨row, hrow, hacc, _⟩ := hbatch.rows cmd (by simp [hrest])
      exact ⟨row, hrow, hacc⟩
  · intro id row hrow hdone
    exact hl.applied_id (h.acked id row hrow hdone)
  · intro e he id hid row hrow hacc
    rcases List.mem_append.mp he with he | he
    · exact (h.behind e he id hid row hrow hacc).imp hl.applied_id fun hexpired => hexpired
    · obtain rfl := List.mem_singleton.mp he
      rcases hbatch.settled_head hrest hid hrow hacc with hseen | hdone | hexpired
      · obtain ⟨e, he, _, hid⟩ := (hp.seen id).mp hseen
        exact Or.inl (hl.applied_id ⟨e, he, hid⟩)
      · exact Or.inl (hl.applied_id (h.acked id row hrow hdone))
      · exact Or.inr hexpired

theorem Poller.Sound.apply (h : p.Sound w l) (hb : p.batch = some b)
    (hrest : b.rest = cmd :: rest) (hfinal : outcome.1 ≠ .pending) :
    Poller.Sound { p with
      seen := cmd.id :: p.seen, batch := some { b with rest, unsent := some (cmd.id, outcome) } } w
      { l with applied := l.applied ++ [⟨w, p.incarnation, b.accountId, cmd.id, outcome⟩] } := by
  have hbatch := h.batch b hb
  have hsorted := hbatch.sorted
  rw [hrest, List.pairwise_cons] at hsorted
  have hweaken : ∀ id row, l.Settled p.seen id row → Ledger.Settled { l with
      applied := l.applied ++ [⟨w, p.incarnation, b.accountId, cmd.id, outcome⟩] }
      (cmd.id :: p.seen) id row :=
    fun _ _ hsettled => hsettled.imp (List.mem_cons_of_mem _) fun hlater => hlater
  constructor
  · intro id
    rw [List.mem_cons, h.seen]
    constructor
    · rintro (rfl | ⟨e, he, hby, hid⟩)
      · exact ⟨_, List.mem_append_right _ (List.mem_singleton.mpr rfl), ⟨rfl, rfl⟩, rfl⟩
      · exact ⟨e, List.mem_append_left _ he, hby, hid⟩
    · rintro ⟨e, he, hby, hid⟩
      rcases List.mem_append.mp he with he | he
      · exact Or.inr ⟨e, he, hby, hid⟩
      · obtain rfl := List.mem_singleton.mp he
        exact Or.inl hid.symm
  · intro e he hw
    rcases List.mem_append.mp he with he | he
    · exact h.past e he hw
    · obtain rfl := List.mem_singleton.mp he
      exact le_rfl
  · intro e he hby id hid row hrow hacc
    rcases List.mem_append.mp he with he | he
    · exact hweaken id row (h.behind e he hby id hid row hrow hacc)
    · obtain rfl := List.mem_singleton.mp he
      exact hweaken id row (hbatch.settled_head hrest hid hrow hacc)
  · intro b' hb'
    obtain rfl := Option.some.inj hb'
    have hmem : ∀ c ∈ rest, c ∈ b.rest := fun c hc => by simp [hrest, hc]
    constructor
    · exact fun c hc => hbatch.rows c (hmem c hc)
    · exact hsorted.2
    · intro c hc hseen
      rcases List.mem_cons.mp hseen with heq | hseen
      · have := hsorted.1 c hc
        omega
      · exact hbatch.fresh c (hmem c hc) hseen
    · intro c hc e he hby hacc
      rcases List.mem_append.mp he with he | he
      · exact hbatch.ahead c (hmem c hc) e he hby hacc
      · obtain rfl := List.mem_singleton.mp he
        exact hsorted.1 c hc
    · intro c hc id hid row hrow hacc
      rcases hbatch.behind c (hmem c hc) id hid row hrow hacc with hsettled | ⟨c', hc', rfl⟩
      · exact Or.inl (hweaken id row hsettled)
      · rw [hrest, List.mem_cons] at hc'
        rcases hc' with rfl | hc'
        · exact Or.inl (Or.inl List.mem_cons_self)
        · exact Or.inr ⟨c', hc', rfl⟩
    · intro id outcome' hunsent
      obtain ⟨rfl, rfl⟩ : cmd.id = id ∧ outcome = outcome' := by simpa using hunsent
      exact ⟨hfinal, _, List.mem_append_right _ (List.mem_singleton.mpr rfl), rfl⟩

end Apply

theorem Poller.Sound.sent (h : p.Sound w l) {b : Batch} (hb : p.batch = some b) :
    Poller.Sound { p with batch := some { b with unsent := none } } w l := by
  have hbatch := h.batch b hb
  refine ⟨h.seen, h.past, h.behind, ?_⟩
  intro b' hb'
  obtain rfl := Option.some.inj hb'
  refine ⟨hbatch.rows, hbatch.sorted, hbatch.fresh, hbatch.ahead, hbatch.behind, ?_⟩
  intro id outcome hunsent
  cases hunsent

theorem Poller.Sound.dropped (h : p.Sound w l) : Poller.Sound { p with batch := none } w l :=
  ⟨h.seen, h.past, h.behind, fun _ hb => by cases hb⟩

theorem polled_setPoller {commands : CommandTable} {clock : Option Time} {applied : List Application}
    {pollers : WorkerId → Poller} (hp : p.Sound w ⟨commands, clock, applied⟩)
    (h : ∀ w', w' ≠ w → (pollers w').Sound w' ⟨commands, clock, applied⟩) (w' : WorkerId) :
    (Function.update pollers w p w').Sound w' ⟨commands, clock, applied⟩ := by
  by_cases hw : w' = w
  · subst hw
    rwa [Function.update_self]
  · rw [Function.update_of_ne hw]
    exact h w' hw

theorem polled_acknowledged (hs : Polled s) {b : Batch} {outcome : CommandOutcome} {p' : Poller}
    (hb : (s.pollers w).batch = some b) (hunsent : b.unsent = some (id, outcome)) (arrives : Bool)
    (hp' : ∀ l, (s.pollers w).Sound w l → p'.Sound w l) :
    Polled (s.acknowledged w p' id outcome arrives) := by
  cases arrives with
  | false => exact ⟨hs.ledger, polled_setPoller (hp' _ (hs.pollers w)) fun w' _ => hs.pollers w'⟩
  | true =>
    obtain ⟨hfinal, happlied⟩ := ((hs.pollers w).batch b hb).unsent id outcome hunsent
    have hl : s.ledger.Extends { s.ledger with
        commands := s.commands.ack id outcome.1 outcome.2 } := Ledger.extends_ack hfinal
    have hpollers := fun w => (hs.pollers w).extend hs.ledger hl fun _ he => Or.inl he
    refine ⟨hs.ledger.extend hl (fun _ he => he) ?_,
      polled_setPoller (hp' _ (hpollers w)) fun w' _ => hpollers w'⟩
    intro i row hrow hdone
    rw [show (Ledger.commands _).get? i = _ from CommandTable.get?_ack i] at hrow
    split_ifs at hrow with hi
    · exact hi ▸ happlied
    · exact hs.ledger.acked i row hrow hdone

theorem polled_step (h : s.step a = some s') (hguard : PullsInOrder s a s') (hs : Polled s) :
    Polled s' := by
  have hacked : ∀ id row, s.commands.get? id = some row → row.status ≠ .pending →
      s.ledger.Applied id := hs.ledger.acked
  cases CommandSystem.stepped_of_step h with
  | crash w system =>
    exact ⟨hs.ledger, polled_setPoller (hs.pollers w).restart fun w' _ => hs.pollers w'⟩
  | system => exact ⟨hs.ledger, hs.pollers⟩
  | replay obj uuid now =>
    have hl := Ledger.extends_clock (l := s.ledger) (hguard.clock now (Or.inl ⟨obj, uuid, rfl⟩))
    exact ⟨hs.ledger.extend hl (fun _ he => he) hacked,
      fun w => (hs.pollers w).extend hs.ledger hl fun _ he => Or.inl he⟩
  | issue obj uuid now row hpending =>
    have hl : s.ledger.Extends { s.ledger with
        commands := Table.insert s.commands row, clock := some now } :=
      Ledger.extends_insert (hguard.clock now (Or.inl ⟨obj, uuid, rfl⟩))
    refine ⟨hs.ledger.extend hl (fun _ he => he) ?_,
      fun w => (hs.pollers w).extend hs.ledger hl fun _ he => Or.inl he⟩
    intro id row' hrow' hdone
    rcases Table.get?_append_cases hrow' with hold | ⟨_, hnew⟩
    · exact hacked id row' hold hdone
    · obtain rfl := List.mem_singleton.mp (List.mem_of_getElem? hnew)
      exact absurd hpending hdone
  | pull w acc order now hosted horder =>
    have hl := Ledger.extends_clock (l := s.ledger)
      (hguard.clock now (Or.inr ⟨w, acc, order, rfl⟩))
    have hpollers := fun w => (hs.pollers w).extend hs.ledger hl fun _ he => Or.inl he
    refine ⟨hs.ledger.extend hl (fun _ he => he) hacked, polled_setPoller ?_ fun w' _ => hpollers w'⟩
    exact (hpollers w).pull hosted rfl horder (hguard.sorted w acc order now rfl)
      (hguard.news w acc order now rfl)
  | skip w answers b cmd rest hb hrest hseen =>
    exact absurd hseen (((hs.pollers w).batch b hb).fresh cmd (by simp [hrest]))
  | apply w answers b cmd rest hb hrest hseen =>
    have hfinal := applyCommand_outcome (s.system.workers w) s.system.db b.accountId b.hosted cmd
      answers
    refine ⟨hs.ledger.apply (hs.pollers w) hb hrest,
      polled_setPoller ((hs.pollers w).apply hb hrest hfinal) ?_⟩
    intro w' hw'
    refine (hs.pollers w').extend hs.ledger ⟨(Ledger.Extends.refl _).row,
      (Ledger.Extends.refl _).clock, fun e he => List.mem_append_left _ he⟩ ?_
    intro e he
    rcases List.mem_append.mp he with he | he
    · exact Or.inl he
    · obtain rfl := List.mem_singleton.mp he
      exact Or.inr (Ne.symm hw')
  | ack w arrives b id outcome hb hunsent =>
    exact polled_acknowledged hs hb hunsent arrives fun _ h => h.sent hb
  | abort w arrives b id outcome hb hunsent =>
    exact polled_acknowledged hs hb hunsent arrives fun _ h => h.dropped

theorem next_of_applied {e : Application} (h : s.step a = some s')
    (happlied : s'.applied = s.applied ++ [e]) : ∃ w answers b cmd rest, a = .next w answers ∧
      (s.pollers w).batch = some b ∧ b.rest = cmd :: rest ∧ cmd.id ∉ (s.pollers w).seen ∧
      e.By w (s.pollers w).incarnation ∧ e.accountId = b.accountId ∧ e.id = cmd.id := by
  cases CommandSystem.stepped_of_step h with
  | apply w answers b cmd rest hb hrest hseen =>
    obtain rfl : _ = e := by simpa [CommandSystem.applyNext] using happlied
    exact ⟨w, answers, b, cmd, rest, rfl, hb, hrest, hseen, ⟨rfl, rfl⟩, rfl, rfl⟩
  | _ => simp [CommandSystem.acknowledged, CommandSystem.setPoller] at happlied

theorem followsProtocol_of_polled (h : s.step a = some s') (hguard : PullsInOrder s a s')
    (hs : Polled s) : FollowsProtocol s a s' := by
  constructor
  · intro e happlied e' he' hby hid
    obtain ⟨w, _, b, cmd, rest, _, _, _, hseen, ⟨rfl, hinc⟩, _, hcmd⟩ := next_of_applied h happlied
    rw [hinc] at hby
    exact hseen (((hs.pollers _).seen _).mpr ⟨e', he', hby, hid.trans hcmd⟩)
  · intro e happlied row g hrow hg
    obtain ⟨w, answers, b, cmd, rest, ha, hb, hrest, hseen, _, hacc, hcmd⟩ :=
      next_of_applied h happlied
    obtain ⟨row', hrow', _, hpending⟩ := ((hs.pollers w).batch b hb).rows cmd (by simp [hrest])
    rw [hcmd] at hrow
    obtain rfl := Option.some.inj (hrow'.symm.trans hrow)
    rw [hacc]
    refine (hguard.current w answers b cmd rest ha hb hrest hseen).1 g ?_
    rw [hpending]
    exact hg
  · intro e happlied e' he' hacc' hwhich
    obtain ⟨w, answers, b, cmd, rest, ha, hb, hrest, hseen, ⟨rfl, hinc⟩, hacc, hcmd⟩ :=
      next_of_applied h happlied
    have hbatch := (hs.pollers e.workerId).batch b hb
    rw [hcmd]
    rcases hwhich with hby | hfirst
    · rw [hinc] at hby
      exact hbatch.ahead cmd (by simp [hrest]) e' he' hby (hacc'.trans hacc)
    · obtain ⟨row, hrow, hrowacc, _⟩ := hbatch.rows cmd (by simp [hrest])
      rcases Nat.lt_trichotomy e'.id cmd.id with hlt | heq | hgt
      · exact hlt
      · exact absurd (heq.trans hcmd.symm) (hfirst e' he')
      · rcases hs.ledger.behind e' he' cmd.id hgt row hrow (by rw [hrowacc, hacc', hacc]) with
          ⟨e'', he'', hid⟩ | hexpired
        · exact absurd (hid.trans hcmd.symm) (hfirst e'' he'')
        · exact absurd hexpired
            ((hguard.current e.workerId answers b cmd rest ha hb hrest hseen).2 row hrow)
  · intro w answers b cmd rest e _ hb hrest he hby hid
    have hfresh := ((hs.pollers w).batch b hb).fresh cmd (by simp [hrest])
    exact absurd (((hs.pollers w).seen cmd.id).mpr ⟨e, he, hby, hid⟩) hfresh

theorem polled_start (config : WorkerId → WorkerConfig) : Polled (.start config) := by
  constructor
  · constructor
    · intro e he
      cases he
    · intro id row hrow
      cases hrow
    · intro e he
      cases he
  · intro w
    constructor
    · intro id
      constructor
      · intro hid
        cases hid
      · rintro ⟨e, he, _⟩
        cases he
    · intro e he
      cases he
    · intro e he
      cases he
    · intro b hb
      cases hb

/-- The commands of a run whose pulls are sorted, current and new follow the protocol. -/
theorem commands_follow_protocol (config : WorkerId → WorkerConfig) (as : List CommandAction)
    (hguard : Machine.Always CommandSystem.step PullsInOrder (.start config) as) :
    Machine.Always CommandSystem.step FollowsProtocol (.start config) as := by
  refine hguard.of_invariant (I := Polled) ?_ ?_ (polled_start config)
  · intro s a s' h hg hs
    exact polled_step h hg hs
  · intro s a s' h hg hs
    exact followsProtocol_of_polled h hg hs

/-- `PullsInOrder` as a test. -/
def pullsInOrder (s : CommandSystem) (a : CommandAction) (_ : CommandSystem) : Bool :=
  match a with
  | .issue _ _ now => s.clock.all (· ≤ now)
  | .pull w _ order now =>
    s.clock.all (· ≤ now) &&
      (s.commands.getPending order now).Pairwise (fun c c' => c.id < c'.id) &&
      (s.commands.getPending order now).all fun c => c.id ∉ (s.pollers w).seen
  | .next w _ =>
    (s.pollers w).batch.all fun b =>
      match b.rest with
      | [] => true
      | cmd :: _ =>
        cmd.expectedGeneration.all (fun g =>
          (s.system.db.accountLeases b.accountId).map AccountLease.generation = some g) &&
        (s.commands.get? cmd.id).all fun row => s.clock.all fun t => row.alive t
  | _ => true

theorem pullsInOrder_spec (s : CommandSystem) (a : CommandAction) (s' : CommandSystem)
    (h : pullsInOrder s a s' = true) : PullsInOrder s a s' := by
  constructor
  · rintro now (⟨obj, uuid, rfl⟩ | ⟨w, acc, order, rfl⟩) t ht
    · simpa [pullsInOrder, ht] using h
    · simp only [pullsInOrder, ht, Option.all_some, Bool.and_eq_true, decide_eq_true_eq] at h
      exact h.1.1
  · rintro w acc order now rfl
    simp only [pullsInOrder, Bool.and_eq_true, decide_eq_true_eq] at h
    exact h.1.2
  · rintro w acc order now rfl c hc
    simp only [pullsInOrder, Bool.and_eq_true, List.all_eq_true, decide_eq_true_eq] at h
    exact h.2 c hc
  · rintro w answers b cmd rest rfl hb hrest _
    simp only [pullsInOrder, hb, Option.all_some, hrest, Bool.and_eq_true] at h
    constructor
    · intro g hg
      simpa [hg] using h.1
    · rintro row hrow ⟨t, ht, hexpired⟩
      simp [hrow, ht, hexpired] at h

/-- The assignment of account `A` to a worker, as a part of the protocol's run. -/
def hostA (w : WorkerId) (now : Time) : List CommandAction :=
  (assignSteps w { accountId := "A", tenantId := "t", projectId := "p" } now).map .system

def reloadOnce : CreateCommand where
  accountId := "A"
  type := .reloadConfig
  expectedGeneration := some 1
  dedupKey := some "k"

/-- Two commands are issued, one of them twice, and pulled and acknowledged in order. -/
def reloadThenSync : List CommandAction :=
  hostA "w1" 0 ++
    [.issue reloadOnce "u" 1, .issue reloadOnce "v" 2,
      .issue { accountId := "A", type := .syncChats } "x" 3, .pull "w1" "A" [0, 1] 4,
      .next "w1" {}, .ack "w1" true, .next "w1" {}, .ack "w1" true]

theorem commands_follow_protocol_reload :
    Machine.Always CommandSystem.step FollowsProtocol (.start fun _ => {}) reloadThenSync :=
  commands_follow_protocol _ _ (Machine.always_of_checkRun pullsInOrder_spec (by decide +kernel))

def stopAfterTakeover : List CommandAction :=
  hostA "w1" 0 ++
    [.issue { accountId := "A", type := .stopAccount, expectedGeneration := some 1 } "u" 1,
      .system (.crash "w1")] ++
    hostA "w2" 50000000 ++ [.pull "w2" "A" [0] 50000001]

/-- The generation a command expects is not looked at. -/
theorem stale_command_is_applied : ¬ ∀ (config : WorkerId → WorkerConfig) (as : List CommandAction),
    Machine.Always CommandSystem.step FollowsProtocol (.start config) as := by
  intro h
  have hobserved : ((Machine.run CommandSystem.step (.start fun _ => {}) stopAfterTakeover).bind
      fun s => (s.step (.next "w2" {})).map fun s' =>
        (s'.applied = s.applied ++ [⟨"w2", 0, "A", 0, .done, "released"⟩] : Bool) &&
          (s.commands.get? 0).any (·.expectedGeneration = some 1) &&
          ((s.system.db.accountLeases "A").map AccountLease.generation = some 2 : Bool)) =
      some true := by
    decide +kernel
  obtain ⟨s, s', hrun, hstep, hs⟩ :=
    Machine.exists_of_observed (f := fun (s s' : CommandSystem) => _) hobserved
  simp only [Bool.and_eq_true, decide_eq_true_eq, Option.any_eq_true] at hs
  obtain ⟨⟨happlied, row, hrow, hexpected⟩, hgeneration⟩ := hs
  refine Machine.not_always_of_step hrun hstep ?_ (h _ _)
  intro hfollows
  have hfenced := hfollows.fenced _ happlied row 1 hrow hexpected
  exact absurd (hgeneration.symm.trans hfenced) (by decide)

end TgPlatform
