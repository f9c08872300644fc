import Mathlib.Data.Finset.Insert
import Mathlib.Data.List.Sort
import Mathlib.Order.Monotone.Basic
import TgPlatform.Lib.Dict
import TgPlatform.Lib.Machine

/-! # Albums

The messages of an album arrive one by one. The aggregator collects them under
their key until the window of the first one has elapsed, and then emits the
group, once: by the next message of the album, or by a flush. A message that
comes after that is late.
-/

namespace TgPlatform

/-- `MemberDisposition`. -/
inductive MemberDisposition | inGroup | late
  deriving DecidableEq, Repr

/-- The account, the chat and the `grouped_id` of an album. -/
abbrev AlbumKey := String × ℤ × ℤ

/-- `AlbumGroup`, over the times `τ` of the clock. -/
structure AlbumGroup (τ : Type) where
  key : AlbumKey
  firstSeen : τ
  members : List ℤ := []
  closed : Bool := false
  deriving DecidableEq, Repr

/-- A clock and the window. The clock does not go back, and neither do the times since a moment;
they may be rounded. -/
structure AlbumClock (τ : Type) [LinearOrder τ] [Sub τ] where
  now : ℕ → τ
  window : τ
  mono : Monotone now
  sub_mono : ∀ c, Monotone fun t : τ => t - c

/-- `AlbumAggregator`. The clock has been read `reads` times. -/
structure AlbumAggregator (τ : Type) where
  opened : Dict AlbumKey (AlbumGroup τ) := .empty
  closedKeys : Finset AlbumKey := ∅
  reads : ℕ := 0

inductive AlbumCall
  | add (key : AlbumKey) (messageId : ℤ)
  | flush
  deriving DecidableEq, Repr

inductive AlbumResult (τ : Type)
  | added (group : Option (AlbumGroup τ)) (disposition : MemberDisposition)
  | flushed (groups : List (AlbumGroup τ))

namespace AlbumAggregator

variable {τ : Type} [LinearOrder τ] [Sub τ] (clock : AlbumClock τ)

def elapsed (group : AlbumGroup τ) (reading : ℕ) : Prop :=
  clock.window ≤ clock.now reading - group.firstSeen

instance (group : AlbumGroup τ) (reading : ℕ) : Decidable (elapsed clock group reading) :=
  inferInstanceAs (Decidable (_ ≤ _))

/-- `_maybe_close`, of a group of the table; no result is a `KeyError`. -/
def maybeClose (group : AlbumGroup τ) (s : AlbumAggregator τ) :
    Option (Option (AlbumGroup τ) × AlbumAggregator τ) :=
  let read := { s with reads := s.reads + 1 }
  if elapsed clock group s.reads then
    let group := { group with members := group.members.insertionSort (· ≤ ·), closed := true }
    if (s.opened.get? group.key).isSome then
      some (some group, { read with
        opened := s.opened.pop group.key, closedKeys := insert group.key s.closedKeys })
    else none
  else some (none, read)

def groupOf (key : AlbumKey) (s : AlbumAggregator τ) : AlbumGroup τ × AlbumAggregator τ :=
  match s.opened.get? key with
  | some group => (group, s)
  | none => ({ key, firstSeen := clock.now s.reads }, { s with reads := s.reads + 1 })

/-- `add`. The group is an object of the table, so that its new member stands there too. -/
def add (key : AlbumKey) (messageId : ℤ) (s : AlbumAggregator τ) :
    Option (AlbumResult τ × AlbumAggregator τ) :=
  if key ∈ s.closedKeys then some (.added none .late, s)
  else
    let (group, s) := s.groupOf clock key
    let group := if messageId ∈ group.members then group
      else { group with members := group.members ++ [messageId] }
    (maybeClose clock group { s with opened := s.opened.set key group }).map fun (closed, s) =>
      (.added closed .inGroup, s)

/-- The loop of `flush`, over a copy of the table. -/
def closeAll (groups closed : List (AlbumGroup τ)) (s : AlbumAggregator τ) :
    Option (List (AlbumGroup τ) × AlbumAggregator τ) :=
  match groups with
  | [] => some (closed, s)
  | group :: groups =>
    (maybeClose clock group s).bind fun (done, s) => closeAll groups (closed ++ done.toList) s

/-- `flush`. -/
def flush (s : AlbumAggregator τ) : Option (AlbumResult τ × AlbumAggregator τ) :=
  (closeAll clock s.opened.values [] s).map fun (closed, s) => (.flushed closed, s)

def call (s : AlbumAggregator τ) : AlbumCall → Option (AlbumResult τ × AlbumAggregator τ)
  | .add key messageId => s.add clock key messageId
  | .flush => s.flush clock

end AlbumAggregator

def AlbumResult.disposition {τ : Type} : AlbumResult τ → Option MemberDisposition
  | .added _ disposition => some disposition
  | .flushed _ => none

def AlbumResult.groups {τ : Type} : AlbumResult τ → List (AlbumGroup τ)
  | .added group _ => group.toList
  | .flushed groups => groups

structure AlbumRun (τ : Type) where
  aggregator : AlbumAggregator τ := {}
  answers : List (AlbumCall × AlbumResult τ) := []

namespace AlbumRun

variable {τ : Type}

def step [LinearOrder τ] [Sub τ] (clock : AlbumClock τ) (x : AlbumRun τ) (c : AlbumCall) :
    Option (AlbumRun τ) :=
  (x.aggregator.call clock c).map fun (result, s) => ⟨s, x.answers ++ [(c, result)]⟩

variable (x : AlbumRun τ)

def emitted : List (AlbumGroup τ) := x.answers.flatMap fun answer => answer.2.groups

def Added (key : AlbumKey) (messageId : ℤ) : Prop :=
  ∃ group, (.add key messageId, .added group .inGroup) ∈ x.answers

/-- Every message added in time stands in the one group of its key, emitted or open. -/
structure Accounts : Prop where
  once : (x.emitted.map AlbumGroup.key).Nodup
  kept : ∀ key messageId, x.Added key messageId →
    (∃ group ∈ x.emitted, group.key = key ∧ messageId ∈ group.members) ∨
      ∃ group, x.aggregator.opened.get? key = some group ∧ messageId ∈ group.members
  increasing : ∀ group ∈ x.emitted, group.members.Pairwise (· < ·)
  added : ∀ group ∈ x.emitted, ∀ messageId ∈ group.members, x.Added group.key messageId

/-- A call tells the late messages, and emits the groups whose window has elapsed: that of its own
key, or all of them. -/
structure Answers [LinearOrder τ] [Sub τ] (clock : AlbumClock τ) (x : AlbumRun τ) (c : AlbumCall)
    (result : AlbumResult τ) : Prop where
  late : ∀ key messageId, c = .add key messageId →
    (result.disposition = some .late ↔ key ∈ x.emitted.map AlbumGroup.key)
  emits : ∀ key group, x.aggregator.opened.get? key = some group →
    (∃ reading ≤ x.aggregator.reads, AlbumAggregator.elapsed clock group reading) →
      (c = .flush ∨ ∃ messageId, c = .add key messageId) →
        key ∈ result.groups.map AlbumGroup.key

end AlbumRun

/-! ## A partition of the messages -/

namespace AlbumAggregator

/-- The open and the emitted groups hold the messages added in time, each under its key. -/
structure Partition {τ : Type} (s : AlbumAggregator τ) (added : AlbumKey → ℤ → Prop)
    (emitted : List (AlbumGroup τ)) : Prop where
  keyed : s.opened.KeyedBy AlbumGroup.key
  fresh : ∀ key ∈ s.closedKeys, s.opened.get? key = none
  closed : ∀ key, key ∈ s.closedKeys ↔ key ∈ emitted.map AlbumGroup.key
  once : (emitted.map AlbumGroup.key).Nodup
  distinct : ∀ key group, s.opened.get? key = some group → group.members.Nodup
  members : ∀ key group, s.opened.get? key = some group →
    ∀ messageId, messageId ∈ group.members ↔ added key messageId
  increasing : ∀ group ∈ emitted, group.members.Pairwise (· < ·)
  collected : ∀ group ∈ emitted, ∀ messageId, messageId ∈ group.members ↔ added group.key messageId
  placed : ∀ key messageId, added key messageId →
    key ∈ s.closedKeys ∨ (s.opened.get? key).isSome

variable {τ : Type} [LinearOrder τ] [Sub τ] {clock : AlbumClock τ} {s s' : AlbumAggregator τ}
  {added : AlbumKey → ℤ → Prop} {emitted : List (AlbumGroup τ)} {group : AlbumGroup τ}

theorem elapsed_mono {i j : ℕ} (hij : i ≤ j) (h : elapsed clock group i) : elapsed clock group j :=
  le_trans h (clock.sub_mono group.firstSeen (clock.mono hij))

omit [LinearOrder τ] [Sub τ] in
theorem partition_start : ({} : AlbumAggregator τ).Partition (fun _ _ => False) [] := by
  constructor
  · exact Dict.keyedBy_empty
  all_goals simp

variable (clock) in
/-- A group is emitted at the first reading at which its window has elapsed. -/
theorem Partition.maybeClose (h : s.Partition added emitted)
    (hgroup : s.opened.get? group.key = some group) :
    ∃ done s', AlbumAggregator.maybeClose clock group s = some (done, s') ∧
      s'.Partition added (emitted ++ done.toList) ∧ s.reads ≤ s'.reads ∧
      (∀ key, key ≠ group.key → s'.opened.get? key = s.opened.get? key) ∧
      (elapsed clock group s.reads → ∃ g, done = some g ∧ g.key = group.key) := by
  have hsome : (s.opened.get? group.key).isSome := by rw [hgroup]; rfl
  unfold AlbumAggregator.maybeClose
  dsimp only
  by_cases helapsed : elapsed clock group s.reads
  · rw [if_pos helapsed, if_pos hsome]
    refine ⟨_, _, rfl, ?_, Nat.le_succ _, fun key hkey => Dict.get?_pop_of_ne hkey,
      fun _ => ⟨_, rfl, rfl⟩⟩
    have hopen : ∀ key g, (s.opened.pop group.key).get? key = some g →
        key ≠ group.key ∧ s.opened.get? key = some g := by
      intro key g hg
      by_cases hkey : key = group.key
      · rw [hkey, Dict.get?_pop_self] at hg
        cases hg
      · exact ⟨hkey, by rwa [Dict.get?_pop_of_ne hkey] at hg⟩
    have hnew : group.key ∉ s.closedKeys := fun hmem => by
      rw [h.fresh _ hmem] at hgroup
      cases hgroup
    refine ⟨h.keyed.pop, fun key hkey => ?_, fun key => ?_, ?_, fun key g hg => ?_,
      fun key g hg => ?_, fun g hg => ?_, fun g hg => ?_, fun key messageId hadded => ?_⟩
    · by_cases heq : key = group.key
      · rw [heq, Dict.get?_pop_self]
      · rw [Dict.get?_pop_of_ne heq]
        exact h.fresh key ((Finset.mem_insert.mp hkey).resolve_left heq)
    · simp [h.closed key, or_comm]
    · rw [Option.toList_some, List.map_append, List.map_singleton]
      refine List.nodup_append.mpr ⟨h.once, List.nodup_singleton _, ?_⟩
      rintro key hkey _ hlast rfl
      rw [List.mem_singleton.mp hlast] at hkey
      exact hnew ((h.closed _).mpr hkey)
    · exact h.distinct key g (hopen key g hg).2
    · exact h.members key g (hopen key g hg).2
    · rcases List.mem_append.mp hg with hg | hg
      · exact h.increasing g hg
      · obtain rfl := List.mem_singleton.mp hg
        have hnodup := (List.perm_insertionSort (· ≤ ·) group.members).nodup_iff.mpr
          (h.distinct _ group hgroup)
        exact (List.pairwise_insertionSort (· ≤ ·) group.members).imp₂
          (fun _ _ hle hne => lt_of_le_of_ne hle hne) hnodup
    · rcases List.mem_append.mp hg with hg | hg
      · exact h.collected g hg
      · obtain rfl := List.mem_singleton.mp hg
        intro messageId
        exact (List.mem_insertionSort _).trans (h.members _ group hgroup messageId)
    · by_cases heq : key = group.key
      · exact .inl (heq ▸ Finset.mem_insert_self _ _)
      · rw [Dict.get?_pop_of_ne heq]
        exact (h.placed key messageId hadded).imp_left Finset.mem_insert_of_mem
  · rw [if_neg helapsed]
    refine ⟨none, _, rfl, ?_, Nat.le_succ _, fun _ _ => rfl, fun hnot => absurd hnot helapsed⟩
    rw [Option.toList_none, List.append_nil]
    exact ⟨h.keyed, h.fresh, h.closed, h.once, h.distinct, h.members, h.increasing, h.collected,
      h.placed⟩

variable (clock) in
/-- The loop of a flush: each group of the copy still stands in the table when its turn comes. -/
theorem Partition.closeAll : ∀ {groups closed : List (AlbumGroup τ)} {s : AlbumAggregator τ},
    s.Partition added (emitted ++ closed) → (groups.map AlbumGroup.key).Nodup →
      (∀ group ∈ groups, s.opened.get? group.key = some group) →
        ∃ closed' s', AlbumAggregator.closeAll clock groups closed s = some (closed', s') ∧
          s'.Partition added (emitted ++ closed') ∧ closed <+: closed' ∧
          ∀ group ∈ groups, elapsed clock group s.reads →
            group.key ∈ closed'.map AlbumGroup.key
  | [], closed, s, h, _, _ => ⟨closed, s, rfl, h, List.prefix_rfl, by simp⟩
  | group :: groups, closed, s, h, hnodup, hopen => by
    rw [List.map_cons, List.nodup_cons] at hnodup
    obtain ⟨done, s₁, hclose, h₁, hreads, hkept, hdone⟩ :=
      h.maybeClose clock (hopen group List.mem_cons_self)
    rw [List.append_assoc] at h₁
    have hopen₁ : ∀ g ∈ groups, s₁.opened.get? g.key = some g := by
      intro g hg
      rw [hkept g.key fun heq => hnodup.1 (heq ▸ List.mem_map_of_mem hg)]
      exact hopen g (List.mem_cons_of_mem _ hg)
    obtain ⟨closed', s', hrest, h', hpre, hall⟩ := closeAll h₁ hnodup.2 hopen₁
    refine ⟨closed', s', ?_, h', (List.prefix_append _ _).trans hpre, fun g hg helapsed => ?_⟩
    · rw [AlbumAggregator.closeAll, hclose]
      exact hrest
    · rcases List.mem_cons.mp hg with rfl | hg
      · obtain ⟨g', rfl, hkey⟩ := hdone helapsed
        rw [← hkey]
        exact List.mem_map_of_mem (hpre.subset (by simp))
      · exact hall g hg (elapsed_mono hreads helapsed)

variable (clock) in
theorem Partition.flush (h : s.Partition added emitted) :
    ∃ closed s', s.flush clock = some (.flushed closed, s') ∧
      s'.Partition added (emitted ++ closed) ∧
      ∀ key group, s.opened.get? key = some group → elapsed clock group s.reads →
        key ∈ closed.map AlbumGroup.key := by
  have hvalues : (s.opened.values.map AlbumGroup.key).Nodup := by
    rw [h.keyed.map_values]
    exact h.keyed.nodup
  have hstart : s.Partition added (emitted ++ []) := by rwa [List.append_nil]
  obtain ⟨closed, s', hloop, h', -, hall⟩ :=
    hstart.closeAll clock hvalues fun group hg => h.keyed.mem_values.mp hg
  refine ⟨closed, s', ?_, h', fun key group hgroup helapsed => ?_⟩
  · rw [AlbumAggregator.flush, hloop]
    rfl
  · have hkey := h.keyed.keyed key group hgroup
    rw [← hkey] at hgroup ⊢
    exact hall group (h.keyed.mem_values.mpr hgroup) helapsed

theorem add_late {key : AlbumKey} {messageId : ℤ} (hclosed : key ∈ s.closedKeys) :
    s.add clock key messageId = some (.added none .late, s) := if_pos hclosed

variable (clock) in
theorem groupOf_cases (key : AlbumKey) (s : AlbumAggregator τ) :
    (∃ group, s.opened.get? key = some group ∧ s.groupOf clock key = (group, s)) ∨
      s.opened.get? key = none ∧ s.groupOf clock key =
        ({ key, firstSeen := clock.now s.reads }, { s with reads := s.reads + 1 }) := by
  unfold groupOf
  cases hgroup : s.opened.get? key with
  | some group => exact .inl ⟨group, rfl, rfl⟩
  | none => exact .inr ⟨rfl, rfl⟩

omit [LinearOrder τ] [Sub τ] in
theorem Partition.join {key : AlbumKey} {messageId : ℤ} {group' : AlbumGroup τ}
    (h : s.Partition added emitted) (hclosed : key ∉ s.closedKeys) (hkey : group'.key = key)
    (hnodup : group'.members.Nodup)
    (hmembers : ∀ m, m ∈ group'.members ↔ added key m ∨ m = messageId) (n : ℕ) :
    ({ s with opened := s.opened.set key group', reads := n } : AlbumAggregator τ).Partition
      (fun k m => added k m ∨ k = key ∧ m = messageId) emitted := by
  subst hkey
  have hother : ∀ k g, (s.opened.set group'.key group').get? k = some g →
      k = group'.key ∧ g = group' ∨ k ≠ group'.key ∧ s.opened.get? k = some g := by
    intro k g hg
    by_cases hk : k = group'.key
    · rw [hk, Dict.get?_set_self] at hg
      exact .inl ⟨hk, (Option.some.inj hg).symm⟩
    · rw [Dict.get?_set_of_ne hk] at hg
      exact .inr ⟨hk, hg⟩
  have hemitted : ∀ g ∈ emitted, g.key ≠ group'.key := fun g hg heq =>
    hclosed ((h.closed _).mpr (heq ▸ List.mem_map_of_mem hg))
  refine ⟨h.keyed.set, fun k hk => ?_, h.closed, h.once, fun k g hg => ?_, fun k g hg m => ?_,
    h.increasing, fun g hg m => ?_, fun k m hadded => ?_⟩
  · have hne : k ≠ group'.key := by
      rintro rfl
      exact hclosed hk
    rw [Dict.get?_set_of_ne hne]
    exact h.fresh k hk
  · rcases hother k g hg with ⟨-, rfl⟩ | ⟨-, hg⟩
    · exact hnodup
    · exact h.distinct k g hg
  · rcases hother k g hg with ⟨rfl, rfl⟩ | ⟨hne, hg⟩
    · simpa using hmembers m
    · rw [h.members k g hg m]
      simp [hne]
  · rw [h.collected g hg m]
    simp [hemitted g hg]
  · by_cases hk : k = group'.key
    · right
      rw [hk, Dict.get?_set_self]
      rfl
    · rw [Dict.get?_set_of_ne hk]
      exact h.placed k m (hadded.resolve_right fun hnew => hk hnew.1)

variable (clock) in
theorem Partition.add {key : AlbumKey} (messageId : ℤ) (h : s.Partition added emitted)
    (hclosed : key ∉ s.closedKeys) :
    ∃ closed s', s.add clock key messageId = some (.added closed .inGroup, s') ∧
      s'.Partition (fun k m => added k m ∨ k = key ∧ m = messageId) (emitted ++ closed.toList) ∧
      ∀ group, s.opened.get? key = some group → elapsed clock group s.reads →
        ∃ g, closed = some g ∧ g.key = key := by
  obtain ⟨group, s₁, hof, hkey, hnodup, hmembers, hs₁, hreads, hfound⟩ : ∃ group s₁,
      s.groupOf clock key = (group, s₁) ∧ group.key = key ∧ group.members.Nodup ∧
        (∀ m, m ∈ group.members ↔ added key m) ∧ s₁ = { s with reads := s₁.reads } ∧
          s.reads ≤ s₁.reads ∧ ∀ g, s.opened.get? key = some g → g = group := by
    rcases groupOf_cases clock key s with ⟨group, hgroup, hof⟩ | ⟨hnone, hof⟩
    · exact ⟨group, s, hof, h.keyed.keyed key group hgroup, h.distinct key group hgroup,
        h.members key group hgroup, rfl, le_rfl, fun g hg => Option.some.inj (hg.symm.trans hgroup)⟩
    · refine ⟨_, _, hof, rfl, List.nodup_nil, fun m => ?_, rfl, Nat.le_succ _, fun g hg => ?_⟩
      · refine iff_of_false (List.not_mem_nil) fun hadded => ?_
        rcases h.placed key m hadded with hmem | hopen
        · exact hclosed hmem
        · rw [hnone] at hopen
          cases hopen
      · rw [hnone] at hg
        cases hg
  generalize hjoined : (if messageId ∈ group.members then group
    else { group with members := group.members ++ [messageId] }) = group'
  have hkey' : group'.key = key := by
    rw [← hjoined]
    split <;> exact hkey
  have hnodup' : group'.members.Nodup := by
    rw [← hjoined]
    split
    · exact hnodup
    · rename_i hnew
      exact List.Nodup.append hnodup (List.nodup_singleton _) (by simpa using hnew)
  have hmembers' : ∀ m, m ∈ group'.members ↔ added key m ∨ m = messageId := by
    intro m
    rw [← hmembers m, ← hjoined]
    split
    · rename_i hmem
      refine ⟨.inl, fun hm => hm.elim id ?_⟩
      rintro rfl
      exact hmem
    · simp
  have hjoin := h.join hclosed hkey' hnodup' hmembers' s₁.reads
  have hget : (s.opened.set key group').get? group'.key = some group' := by
    rw [hkey', Dict.get?_set_self]
  obtain ⟨done, s', hclose, h', -, -, hdone⟩ := hjoin.maybeClose clock hget
  refine ⟨done, s', ?_, h', fun g hg helapsed => ?_⟩
  · rw [AlbumAggregator.add, if_neg hclosed, hof]
    dsimp only
    rw [hjoined, hs₁, hclose]
    rfl
  · obtain rfl := hfound g hg
    have hseen : group'.firstSeen = g.firstSeen := by
      rw [← hjoined]
      split <;> rfl
    have helapsed' : elapsed clock group' s₁.reads := by
      unfold elapsed
      rw [hseen]
      exact elapsed_mono hreads helapsed
    obtain ⟨g', hg', hkey''⟩ := hdone helapsed'
    exact ⟨g', hg', hkey''.trans hkey'⟩

end AlbumAggregator

/-! ## Runs -/

namespace AlbumRun

variable {τ : Type} {x : AlbumRun τ} {s : AlbumAggregator τ} {c : AlbumCall} {result : AlbumResult τ}

def Sound (x : AlbumRun τ) : Prop := x.aggregator.Partition x.Added x.emitted

theorem emitted_snoc : emitted ⟨s, x.answers ++ [(c, result)]⟩ = x.emitted ++ result.groups := by
  simp [emitted]

theorem added_snoc {key : AlbumKey} {messageId : ℤ} :
    Added ⟨s, x.answers ++ [(c, result)]⟩ key messageId ↔ x.Added key messageId ∨
      c = .add key messageId ∧ ∃ group, result = .added group .inGroup := by
  simp [Added, List.mem_append, exists_or, eq_comm]

theorem sound_start : Sound ({} : AlbumRun τ) := by
  have hnone : Added ({} : AlbumRun τ) = fun _ _ => False := by
    funext key messageId
    simp [Added]
  unfold Sound
  rw [hnone]
  exact AlbumAggregator.partition_start

variable [LinearOrder τ] [Sub τ] {clock : AlbumClock τ}

variable (clock) in
theorem Sound.step (h : x.Sound) (c : AlbumCall) :
    ∃ result s, x.step clock c = some ⟨s, x.answers ++ [(c, result)]⟩ ∧
      Sound ⟨s, x.answers ++ [(c, result)]⟩ ∧ x.Answers clock c result := by
  have hpartition : x.aggregator.Partition x.Added x.emitted := h
  have hstep : ∀ result s, x.aggregator.call clock c = some (result, s) →
      x.step clock c = some ⟨s, x.answers ++ [(c, result)]⟩ := by
    intro result s hcall
    rw [AlbumRun.step, hcall]
    rfl
  have hsound : ∀ result s (added : AlbumKey → ℤ → Prop),
      s.Partition added (x.emitted ++ result.groups) →
        (∀ k m, added k m ↔ x.Added k m ∨ c = .add k m ∧ ∃ g, result = .added g .inGroup) →
          Sound ⟨s, x.answers ++ [(c, result)]⟩ := by
    intro result s added hs hadded
    have heq : Added ⟨s, x.answers ++ [(c, result)]⟩ = added := by
      funext k m
      exact propext (added_snoc.trans (hadded k m).symm)
    unfold Sound
    rwa [heq, emitted_snoc]
  have hnow : ∀ {g : AlbumGroup τ},
      (∃ reading ≤ x.aggregator.reads, AlbumAggregator.elapsed clock g reading) →
        AlbumAggregator.elapsed clock g x.aggregator.reads :=
    fun ⟨_, hle, helapsed⟩ => AlbumAggregator.elapsed_mono hle helapsed
  cases c with
  | flush =>
    obtain ⟨closed, s, hcall, hs, hall⟩ := hpartition.flush clock
    refine ⟨.flushed closed, s, hstep _ _ hcall, hsound _ _ _ hs (by simp), ⟨nofun, ?_⟩⟩
    exact fun key group hgroup helapsed _ => hall key group hgroup (hnow helapsed)
  | add key messageId =>
    by_cases hclosed : key ∈ x.aggregator.closedKeys
    · refine ⟨_, _, hstep _ _ (AlbumAggregator.add_late hclosed), hsound _ _ x.Added ?_ (by simp),
        ⟨?_, fun k group hgroup _ hc => ?_⟩⟩
      · simpa [AlbumResult.groups] using hpartition
      · rintro _ _ ⟨⟩
        exact iff_of_true rfl ((hpartition.closed key).mp hclosed)
      · obtain ⟨_, ⟨⟩⟩ := hc.resolve_left nofun
        rw [hpartition.fresh _ hclosed] at hgroup
        cases hgroup
    · obtain ⟨closed, s, hcall, hs, hemits⟩ :=
        hpartition.add clock messageId hclosed
      refine ⟨_, s, hstep _ _ hcall, hsound _ _ _ hs ?_, ⟨?_, fun k group hgroup helapsed hc => ?_⟩⟩
      · simp [eq_comm]
      · rintro _ _ ⟨⟩
        exact iff_of_false nofun fun hmem => hclosed ((hpartition.closed key).mpr hmem)
      · obtain ⟨_, ⟨⟩⟩ := hc.resolve_left nofun
        obtain ⟨g, rfl, hkey⟩ := hemits group hgroup (hnow helapsed)
        exact List.mem_map.mpr ⟨g, List.mem_singleton_self g, hkey⟩

omit [LinearOrder τ] [Sub τ] in
theorem Sound.accounts (h : x.Sound) : x.Accounts where
  once := h.once
  kept key messageId hadded := by
    rcases h.placed key messageId hadded with hclosed | hopen
    · obtain ⟨group, hgroup, rfl⟩ := List.mem_map.mp ((h.closed key).mp hclosed)
      exact .inl ⟨group, hgroup, rfl, (h.collected group hgroup messageId).mpr hadded⟩
    · obtain ⟨group, hgroup⟩ := Option.isSome_iff_exists.mp hopen
      exact .inr ⟨group, hgroup, (h.members key group hgroup messageId).mpr hadded⟩
  increasing := h.increasing
  added group hgroup messageId := (h.collected group hgroup messageId).mp

variable (clock) in
/-- No call raises, whatever the calls before it. -/
theorem Sound.run : ∀ (calls : List AlbumCall) {x : AlbumRun τ}, x.Sound →
    ∃ t, Machine.run (AlbumRun.step clock) x calls = some t ∧ t.Sound ∧
      t.answers.map Prod.fst = x.answers.map Prod.fst ++ calls
  | [], x, h => ⟨x, rfl, h, by simp⟩
  | c :: calls, x, h => by
    obtain ⟨result, s, hstep, hs, -⟩ := h.step clock c
    obtain ⟨t, hrun, ht, hcalls⟩ := Sound.run calls hs
    exact ⟨t, Machine.run_cons_eq_some.mpr ⟨_, hstep, hrun⟩, ht, by simp [hcalls]⟩

/-- The aggregator answers every call, and no message and no group is lost or repeated. -/
theorem albums_keep_their_messages (clock : AlbumClock τ) (calls : List AlbumCall) :
    (∃ x, Machine.run (AlbumRun.step clock) {} calls = some x ∧ x.answers.map Prod.fst = calls ∧
      x.Accounts) ∧
      Machine.Always (AlbumRun.step clock) (fun x c x' => ∃ result,
        x'.answers = x.answers ++ [(c, result)] ∧ x.Answers clock c result) {} calls := by
  constructor
  · obtain ⟨x, hrun, hx, hcalls⟩ := sound_start.run clock calls
    exact ⟨x, hrun, hcalls, hx.accounts⟩
  · refine Machine.always_of_invariant (I := Sound) (fun x c x' hstep hx => ?_)
      (fun x c x' hstep hx => ?_) calls sound_start
    · obtain ⟨result, s, hstep', hs, -⟩ := hx.step clock c
      rw [hstep] at hstep'
      rwa [Option.some.inj hstep']
    · obtain ⟨result, s, hstep', -, hanswers⟩ := hx.step clock c
      rw [hstep] at hstep'
      rw [Option.some.inj hstep']
      exact ⟨result, rfl, hanswers⟩

/-- The third message of an album comes after the window and closes the group. -/
example :
    let clock : AlbumClock ℤ := {
      now := fun n => if n < 3 then 0 else 15
      window := 10
      mono := fun i j hij => by dsimp only; split_ifs <;> omega
      sub_mono := fun c i j hij => by dsimp only; omega }
    let key : AlbumKey := ("a1", 100, 55)
    (Machine.run (AlbumRun.step clock) {} [.add key 1, .add key 3, .add key 2]).map
      (fun x => x.emitted.map AlbumGroup.members) = some [[1, 2, 3]] := by
  decide

end AlbumRun

end TgPlatform
