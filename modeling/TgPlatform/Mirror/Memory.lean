import TgPlatform.Lib.Trace
import TgPlatform.Mirror.Storage

/-! # What the memory knows of the mappings

What the memory still knows of a message is the end of what the table would
know. It is all of it for a message that has not been out of use for too long,
and for every message as long as there are few of them.
-/

namespace TgPlatform.Mirror

variable {rows : PostgresDatabase} {db : InMemoryDatabase} {e : MirrorMessage} {k : String}
  {l : List MirrorMessage} {w : Write}

theorem items_insert (db : InMemoryDatabase) (e : MirrorMessage) :
    (db.insert e).items =
      Recency.mutate (db.setdefault e.key []).items e.key fun l => l ++ [e] := rfl

theorem get?_of_write (h : k ≠ w.key) (hl : (db.write w).get? k = some l) : db.get? k = some l := by
  cases w with
  | put e =>
    change Recency.get? (db.insert e).items k = some l at hl
    rw [Write.key_put] at h
    rw [items_insert, Recency.get?_mutate_of_ne h] at hl
    rcases LRUCache.items_setdefault db e.key [] with ⟨l', -, hitems⟩ | ⟨-, hitems⟩
    · rwa [hitems, Recency.get?_put_of_ne h] at hl
    · rw [hitems, LRUCache.purged] at hl
      split at hl
      · have hput := Recency.get?_purge (Recency.nodup_put db.nodup) hl
        rwa [Recency.get?_put_of_ne h] at hput
      · rwa [Recency.get?_put_of_ne h] at hl
  | drop id channel =>
    change Recency.get? (Recency.erase db.items _) k = some l at hl
    rw [Write.key_drop] at h
    rwa [Recency.get?_erase_of_ne h] at hl

/-- The key that is set outlives the purge, as one item is kept at least. -/
theorem get?_setdefault_self (db : InMemoryDatabase) (k : String) :
    (db.setdefault k []).get? k = some ((db.get? k).getD []) := by
  unfold LRUCache.get?
  rcases LRUCache.items_setdefault db k [] with ⟨l, hl, hitems⟩ | ⟨hnone, hitems⟩
  · change Recency.get? db.items k = some l at hl
    rw [hitems, Recency.get?_put_self, hl, Option.getD_some]
  · change Recency.get? db.items k = none at hnone
    rw [hitems, hnone, LRUCache.purged]
    split
    · have hheld : Recency.Held (Recency.purge db.keepLast (Recency.put db.items k [])) k [] [] :=
        Recency.held_put.purge (Recency.nodup_put db.nodup) db.keepLast_pos
      exact hheld.get? ((Recency.nodup_put db.nodup).sublist
        ((Recency.purge_sublist ..).map Prod.fst))
    · exact Recency.get?_put_self

theorem get?_put_self : (db.write (.put e)).get? e.key = some ((db.get? e.key).getD [] ++ [e]) := by
  change Recency.get? (db.insert e).items e.key = _
  rw [items_insert, Recency.get?_mutate_self]
  have hself := get?_setdefault_self db e.key
  unfold LRUCache.get? at hself
  rw [hself]
  rfl

theorem get?_drop_self {id channel : ℤ} :
    (db.write (.drop id channel)).get? (buildMessageKey id channel) = none :=
  Recency.get?_erase_self

/-- What the memory knows of an original is the end of what the table knows. -/
def Refines (db : InMemoryDatabase) (rows : PostgresDatabase) : Prop :=
  ∀ k l, db.get? k = some l → l <:+ rowsOf rows k

theorem Refines.write (h : Refines db rows) (w : Write) :
    Refines (db.write w) (PostgresDatabase.write rows w) := by
  intro k l hl
  by_cases hk : k = w.key
  · subst hk
    cases w with
    | put e =>
      change (db.write (.put e)).get? e.key = some l at hl
      change l <:+ rowsOf (PostgresDatabase.write rows (.put e)) e.key
      rw [get?_put_self] at hl
      obtain rfl := Option.some.inj hl
      rw [rowsOf_put_self]
      cases hold : db.get? e.key with
      | none => exact List.suffix_append _ _
      | some l' =>
        obtain ⟨pre, hpre⟩ := h e.key l' hold
        exact ⟨pre, by rw [Option.getD_some, ← List.append_assoc, hpre]⟩
    | drop id channel =>
      change (db.write (.drop id channel)).get? (buildMessageKey id channel) = some l at hl
      rw [get?_drop_self] at hl
      cases hl
  · rw [rowsOf_write_of_ne hk]
    exact h k l (get?_of_write hk hl)

theorem Refines.foldl (h : Refines db rows) (ws : List Write) :
    Refines (ws.foldl InMemoryDatabase.write db) (ws.foldl PostgresDatabase.write rows) := by
  induction ws generalizing db rows with
  | nil => exact h
  | cons w ws ih => exact ih (h.write w)

/-! ## What the memory does not lose -/

/-- After an insertion for the original, fewer than `keep` others are inserted before it is written
again. -/
def Lasting (keep : ℕ) (k : String) (ws : List Write) : Prop :=
  ∀ pre e mid post, ws = pre ++ .put e :: (mid ++ post) → e.key = k → (∀ w ∈ mid, w.key ≠ k) →
    (mid.filterMap Write.inserted).dedup.length < keep

/-- All of an original's rows are known, and the originals used after it are those inserted since
the last insertion for it. -/
def Known (db : InMemoryDatabase) (rows : PostgresDatabase) (k : String) (ws : List Write) : Prop :=
  (db.get? k = none ∧ rowsOf rows k = []) ∨
  ∃ pre e mid, ws = pre ++ .put e :: mid ∧ e.key = k ∧ (∀ w ∈ mid, w.key ≠ k) ∧
    Recency.Held db.items k (rowsOf rows k) (mid.filterMap Write.inserted)

variable {ws : List Write}

theorem Lasting.init {keep : ℕ} (h : Lasting keep k (ws ++ [w])) : Lasting keep k ws := by
  intro pre e mid post hws
  refine h pre e mid (post ++ [w]) ?_
  rw [hws]
  simp

theorem Known.getMessages (h : Known db rows k ws) : (db.get? k).getD [] = rowsOf rows k := by
  rcases h with ⟨hnone, hrows⟩ | ⟨_, _, _, _, _, _, hheld⟩
  · rw [hnone, hrows, Option.getD_none]
  · rw [LRUCache.get?, hheld.get? db.nodup, Option.getD_some]

@[simp] theorem keepLast_write : (db.write w).keepLast = db.keepLast := by
  cases w with
  | put e => exact LRUCache.keepLast_setdefault
  | drop id channel => rfl

theorem held_put_self :
    Recency.Held (db.write (.put e)).items e.key ((db.get? e.key).getD [] ++ [e]) [] := by
  change Recency.Held (db.insert e).items e.key _ []
  have hheld : Recency.Held (db.setdefault e.key []).items e.key ((db.get? e.key).getD []) [] := by
    rcases LRUCache.items_setdefault db e.key [] with ⟨l, hl, hitems⟩ | ⟨hnone, hitems⟩
    · rw [hitems, hl]
      exact Recency.held_put
    · rw [hitems, hnone, LRUCache.purged]
      split
      · exact Recency.held_put.purge (Recency.nodup_put db.nodup) db.keepLast_pos
      · exact Recency.held_put
  rw [items_insert]
  exact hheld.mutate_self (db.setdefault e.key []).nodup

theorem held_put_of_ne {since : List String} (h : Recency.Held db.items k l since)
    (hne : k ≠ e.key) (hfew : (since ++ [e.key]).dedup.length < db.keepLast) :
    Recency.Held (db.write (.put e)).items k l (since ++ [e.key]) := by
  change Recency.Held (db.insert e).items k l _
  have hput : ∀ v, Recency.Held (Recency.put db.items e.key v) k l (since ++ [e.key]) := by
    intro v
    refine (h.put_of_ne hne).mono fun x hx => ?_
    rcases List.mem_cons.mp hx with rfl | hx
    · exact List.mem_append_right _ (List.mem_singleton_self _)
    · exact List.mem_append_left _ hx
  have hheld : Recency.Held (db.setdefault e.key []).items k l (since ++ [e.key]) := by
    rcases LRUCache.items_setdefault db e.key [] with ⟨l', -, hitems⟩ | ⟨-, hitems⟩
    · rw [hitems]
      exact hput l'
    · rw [hitems, LRUCache.purged]
      split
      · exact (hput []).purge (Recency.nodup_put db.nodup) hfew
      · exact hput []
  rw [items_insert]
  exact hheld.mutate_of_ne hne

theorem Known.snoc (h : Known db rows k ws) (hlast : Lasting db.keepLast k (ws ++ [w])) :
    Known (db.write w) (PostgresDatabase.write rows w) k (ws ++ [w]) := by
  by_cases hk : k = w.key
  · subst hk
    cases w with
    | put e =>
      refine .inr ⟨ws, e, [], rfl, rfl, fun w hw => (List.not_mem_nil hw).elim, ?_⟩
      rw [Write.key_put] at h ⊢
      rw [rowsOf_put_self, ← h.getMessages]
      exact held_put_self
    | drop id channel => exact .inl ⟨get?_drop_self, rowsOf_drop_self⟩
  · rcases h with ⟨hnone, hrows⟩ | ⟨pre, e, mid, rfl, he, hmid, hheld⟩
    · left
      constructor
      · cases hget : (db.write w).get? k with
        | none => rfl
        | some l =>
          rw [get?_of_write hk hget] at hnone
          cases hnone
      · rw [rowsOf_write_of_ne hk, hrows]
    · refine .inr ⟨pre, e, mid ++ [w], by simp, he, ?_, ?_⟩
      · intro w' hw'
        rcases List.mem_append.mp hw' with hw' | hw'
        · exact hmid w' hw'
        · obtain rfl := List.mem_singleton.mp hw'
          exact Ne.symm hk
      · rw [rowsOf_write_of_ne hk]
        cases w with
        | put e' =>
          have hfew := hlast pre e (mid ++ [.put e']) [] (by simp) he (by
            intro w' hw'
            rcases List.mem_append.mp hw' with hw' | hw'
            · exact hmid w' hw'
            · obtain rfl := List.mem_singleton.mp hw'
              exact Ne.symm hk)
          have hsince : (mid ++ [Write.put e']).filterMap Write.inserted =
              mid.filterMap Write.inserted ++ [e'.key] := by
            rw [List.filterMap_append]
            rfl
          rw [hsince] at hfew ⊢
          exact held_put_of_ne hheld hk hfew
        | drop id channel =>
          have hsince : (mid ++ [Write.drop id channel]).filterMap Write.inserted =
              mid.filterMap Write.inserted := by
            rw [List.filterMap_append]
            exact List.append_nil _
          rw [hsince]
          exact hheld.erase_of_ne hk

@[simp] theorem keepLast_foldl (ws : List Write) :
    (ws.foldl InMemoryDatabase.write db).keepLast = db.keepLast := by
  induction ws generalizing db with
  | nil => rfl
  | cons w ws ih => rw [List.foldl_cons, ih, keepLast_write]

theorem known_of_lasting (h : Lasting db.keepLast k ws) (hdb : db.items = []) :
    Known (ws.foldl InMemoryDatabase.write db) (ws.foldl PostgresDatabase.write []) k ws := by
  induction ws using List.reverseRecOn with
  | nil => exact .inl ⟨by rw [List.foldl_nil, LRUCache.get?, hdb, Recency.get?_nil], rfl⟩
  | append_singleton ws w ih =>
    have hknown := ih h.init
    rw [List.foldl_append, List.foldl_append]
    refine hknown.snoc ?_
    rwa [keepLast_foldl]

/-! ## Few originals -/

def originals (rows : PostgresDatabase) : List (ℤ × ℤ) :=
  (rows.map fun e => (e.originalChannel, e.originalId)).dedup

/-- At any time the table has rows of no more than `capacity` originals. -/
def Few (capacity : ℕ) (ws : List Write) : Prop :=
  ∀ pre ∈ ws.inits, (originals (pre.foldl PostgresDatabase.write [])).length ≤ capacity

theorem length_keys_dedup (rows : PostgresDatabase) :
    (rows.map MirrorMessage.key).dedup.length = (originals rows).length := by
  have hkeys : rows.map MirrorMessage.key =
      (rows.map fun e => (e.originalChannel, e.originalId)).map fun x => buildMessageKey x.2 x.1 := by
    rw [List.map_map]
    rfl
  have hinj : Function.Injective fun x : ℤ × ℤ => buildMessageKey x.2 x.1 := by
    intro x y h
    exact Prod.ext (buildMessageKey_inj.mp h).1 (buildMessageKey_inj.mp h).2
  rw [hkeys, List.dedup_map_of_injective hinj, List.length_map, originals]

def Same (db : InMemoryDatabase) (rows : PostgresDatabase) : Prop :=
  ∀ k, db.get? k = if rowsOf rows k = [] then none else some (rowsOf rows k)

theorem Same.getMessages (h : Same db rows) (k : String) : (db.get? k).getD [] = rowsOf rows k := by
  rw [h k]
  split
  · rename_i hrows
    rw [hrows, Option.getD_none]
  · rfl

theorem Same.mem_keys (h : Same db rows) (hk : k ∈ Recency.keys db.items) :
    k ∈ rows.map MirrorMessage.key := by
  have hrows : rowsOf rows k ≠ [] := by
    intro hnil
    have hget := h k
    rw [if_pos hnil] at hget
    exact Recency.get?_eq_none.mp hget hk
  obtain ⟨e, he⟩ := List.exists_mem_of_ne_nil _ hrows
  obtain ⟨hmem, hkey⟩ := List.mem_filter.mp he
  exact List.mem_map.mpr ⟨e, hmem, of_decide_eq_true hkey⟩

theorem Same.get?_put_of_ne (h : Same db rows) (hk : k ≠ e.key)
    (hroom : (originals (rows ++ [e])).length ≤ db.capacity) :
    (db.write (.put e)).get? k = db.get? k := by
  change Recency.get? (db.insert e).items k = Recency.get? db.items k
  rw [items_insert, Recency.get?_mutate_of_ne hk]
  rcases LRUCache.items_setdefault db e.key [] with ⟨l, -, hitems⟩ | ⟨-, hitems⟩
  · rw [hitems, Recency.get?_put_of_ne hk]
  · have hsub : Recency.keys (Recency.put db.items e.key []) ⊆
        ((rows ++ [e]).map MirrorMessage.key).dedup := by
      intro x hx
      rw [List.mem_dedup, List.map_append, List.mem_append]
      rcases Recency.mem_keys_put.mp hx with rfl | hx
      · exact .inr (List.mem_singleton_self _)
      · exact .inl (h.mem_keys hx)
    have hlength := (List.subperm_of_subset (Recency.nodup_put db.nodup) hsub).length_le
    rw [Recency.length_keys, length_keys_dedup] at hlength
    rw [hitems, LRUCache.purged, if_neg (by omega), Recency.get?_put_of_ne hk]

theorem Same.write (h : Same db rows)
    (hroom : (originals (PostgresDatabase.write rows w)).length ≤ db.capacity) :
    Same (db.write w) (PostgresDatabase.write rows w) := by
  intro k
  by_cases hk : k = w.key
  · subst hk
    cases w with
    | put e =>
      rw [Write.key_put, rowsOf_put_self, get?_put_self, h.getMessages, if_neg (by simp)]
    | drop id channel => rw [Write.key_drop, rowsOf_drop_self, get?_drop_self, if_pos rfl]
  · rw [rowsOf_write_of_ne hk, ← h k]
    cases w with
    | put e => exact h.get?_put_of_ne hk hroom
    | drop id channel => exact Recency.get?_erase_of_ne hk

@[simp] theorem capacity_foldl (ws : List Write) :
    (ws.foldl InMemoryDatabase.write db).capacity = db.capacity := by
  induction ws generalizing db with
  | nil => rfl
  | cons w ws ih =>
    rw [List.foldl_cons, ih]
    cases w with
    | put e => exact LRUCache.capacity_setdefault
    | drop id channel => rfl

theorem same_of_few {ws : List Write} (h : Few db.capacity ws) (hdb : db.items = []) :
    Same (ws.foldl InMemoryDatabase.write db) (ws.foldl PostgresDatabase.write []) := by
  induction ws using List.reverseRecOn with
  | nil =>
    intro k
    rw [List.foldl_nil, LRUCache.get?, hdb, Recency.get?_nil]
    rfl
  | append_singleton ws w ih =>
    have hws : Few db.capacity ws := by
      intro pre hpre
      refine h pre ((List.mem_inits _ _).mpr ?_)
      exact ((List.mem_inits _ _).mp hpre).trans (List.prefix_append ws [w])
    have hroom := h (ws ++ [w]) ((List.mem_inits _ _).mpr (List.prefix_refl _))
    rw [List.foldl_append] at hroom ⊢
    rw [List.foldl_append]
    refine (ih hws).write ?_
    rw [capacity_foldl]
    exact hroom

/-! ## Several originals at once -/

theorem getMessagesBatch_perm {ids : List ℤ} (h : ids.Nodup) (channel : ℤ) :
    (postgres.getMessagesBatch rows ids channel).Perm
      (ids.flatMap fun id => postgres.getMessages rows id channel) := by
  induction ids with
  | nil =>
    rw [List.flatMap_nil]
    refine List.Perm.of_eq (List.filter_eq_nil_iff.mpr fun e _ => ?_)
    simp
  | cons id ids ih =>
    obtain ⟨hid, hids⟩ := List.nodup_cons.mp h
    rw [List.flatMap_cons]
    refine List.Perm.trans ?_ ((ih hids).append_left _)
    have hsplit := List.filter_append_perm (fun e : MirrorMessage => decide (e.originalId = id))
      (postgres.getMessagesBatch rows (id :: ids) channel)
    refine hsplit.symm.trans (List.Perm.of_eq ?_)
    change (rows.filter _).filter _ ++ (rows.filter _).filter _ = rows.filter _ ++ rows.filter _
    rw [List.filter_filter, List.filter_filter]
    congr 1
    · refine List.filter_congr fun e _ => ?_
      by_cases he : e.originalId = id
      · simp [he]
      · simp [he]
    · refine List.filter_congr fun e _ => ?_
      by_cases he : e.originalId = id
      · subst he
        simp [hid]
      · simp [he]

theorem subperm_flatMap {α β : Type} {f g : α → List β} (h : ∀ a, (f a).Subperm (g a)) :
    ∀ l : List α, (l.flatMap f).Subperm (l.flatMap g)
  | [] => List.Subperm.refl []
  | a :: l => by
    rw [List.flatMap_cons, List.flatMap_cons]
    exact (h a).append (subperm_flatMap h l)

/-! ## Runs of the two databases -/

section Runs

variable {capacity : ℕ} (hpos : 0 < capacity) (calls : List StorageCall)

/-- After any calls, the memory answers with the end of what the table answers, and with all of it
where the original has not been out of use for too long; of several originals it names no message
that the table does not name. -/
theorem memory_answers_suffix (originalChannel : ℤ) :
    (∀ originalId,
      memory.getMessages (memory.run (LRUCache.ofCapacity capacity hpos) calls) originalId
          originalChannel <:+
        postgres.getMessages (postgres.run [] calls) originalId originalChannel ∧
      (Lasting (max 1 (capacity / 2)) (buildMessageKey originalId originalChannel) (writes calls) →
        memory.getMessages (memory.run (LRUCache.ofCapacity capacity hpos) calls) originalId
            originalChannel =
          postgres.getMessages (postgres.run [] calls) originalId originalChannel)) ∧
    ∀ originalIds : List ℤ, originalIds.Nodup →
      (memory.getMessagesBatch (memory.run (LRUCache.ofCapacity capacity hpos) calls) originalIds
          originalChannel).Subperm
        (postgres.getMessagesBatch (postgres.run [] calls) originalIds originalChannel) := by
  have hrefines : Refines (LRUCache.ofCapacity capacity hpos) [] := by
    rintro k l ⟨⟩
  have hend := hrefines.foldl (writes calls)
  have hsuffix : ∀ originalId,
      memory.getMessages (memory.run (LRUCache.ofCapacity capacity hpos) calls) originalId
          originalChannel <:+
        postgres.getMessages (postgres.run [] calls) originalId originalChannel := by
    intro originalId
    rw [memory_run, postgres_run, getMessages_eq_rowsOf]
    change ((_ : InMemoryDatabase).get? _).getD [] <:+ _
    cases hget : (List.foldl InMemoryDatabase.write (LRUCache.ofCapacity capacity hpos)
        (writes calls)).get? (buildMessageKey originalId originalChannel) with
    | none => exact List.nil_suffix
    | some l => exact hend _ l hget
  refine ⟨fun originalId => ⟨hsuffix originalId, fun hlast => ?_⟩, fun ids hids => ?_⟩
  · rw [memory_run, postgres_run, getMessages_eq_rowsOf]
    have hknown := @known_of_lasting (LRUCache.ofCapacity capacity hpos) _ _ hlast rfl
    exact hknown.getMessages
  · exact (subperm_flatMap (fun id => (hsuffix id).sublist.subperm) ids).trans
      (getMessagesBatch_perm hids originalChannel).symm.subperm

/-- While the table has rows of no more originals than the memory can hold, the two databases give
the same answers, those for several originals in some order. -/
theorem memory_answers_same (hfew : Few capacity (writes calls)) (originalChannel : ℤ) :
    (∀ originalId,
      memory.getMessages (memory.run (LRUCache.ofCapacity capacity hpos) calls) originalId
          originalChannel =
        postgres.getMessages (postgres.run [] calls) originalId originalChannel) ∧
    ∀ originalIds : List ℤ, originalIds.Nodup →
      (memory.getMessagesBatch (memory.run (LRUCache.ofCapacity capacity hpos) calls) originalIds
          originalChannel).Perm
        (postgres.getMessagesBatch (postgres.run [] calls) originalIds originalChannel) := by
  have hone : ∀ originalId,
      memory.getMessages (memory.run (LRUCache.ofCapacity capacity hpos) calls) originalId
          originalChannel =
        postgres.getMessages (postgres.run [] calls) originalId originalChannel := by
    intro originalId
    rw [memory_run, postgres_run, getMessages_eq_rowsOf]
    have hsame := @same_of_few (LRUCache.ofCapacity capacity hpos) _ hfew rfl
    exact hsame.getMessages _
  refine ⟨hone, fun ids hids => ((getMessagesBatch_perm hids originalChannel).trans ?_).symm⟩
  refine List.Perm.of_eq (congrArg List.flatten (List.map_congr_left fun id _ => ?_))
  exact (hone id).symm

end Runs

/-- Five originals, of which the memory has room for four. -/
def fiveInserts : List StorageCall :=
  [.insert ⟨5, -100, 1, -200⟩, .insert ⟨6, -100, 2, -200⟩, .insert ⟨7, -100, 3, -200⟩,
    .insert ⟨8, -100, 4, -200⟩, .insert ⟨9, -100, 5, -200⟩]

theorem lasting_eight : Lasting (max 1 (4 / 2)) (buildMessageKey 8 (-100)) (writes fiveInserts) := by
  intro pre e mid post hws hkey _
  have hid : e.originalId = 8 := (buildMessageKey_inj.mp hkey).2
  have hws' : [.put ⟨5, -100, 1, -200⟩, .put ⟨6, -100, 2, -200⟩, .put ⟨7, -100, 3, -200⟩] ++
      Write.put ⟨8, -100, 4, -200⟩ :: [.put ⟨9, -100, 5, -200⟩] = pre ++ .put e :: (mid ++ post) := hws
  rcases Trace.split_cases hws' with ⟨-, -, hrest⟩ | ⟨between, hfirst, -⟩ | hlast
  · have hlength := congrArg List.length hrest
    have hdistinct := (List.dedup_sublist (mid.filterMap Write.inserted)).length_le.trans
      (List.length_filterMap_le Write.inserted mid)
    rw [List.length_singleton, List.length_append] at hlength
    omega
  · have hmem : Write.put e ∈
        [Write.put ⟨5, -100, 1, -200⟩, .put ⟨6, -100, 2, -200⟩, .put ⟨7, -100, 3, -200⟩] := by
      rw [hfirst]
      exact List.mem_append_right pre List.mem_cons_self
    simp only [List.mem_cons, List.not_mem_nil, or_false, Write.put.injEq] at hmem
    rcases hmem with rfl | rfl | rfl <;> cases hid
  · cases List.mem_singleton.mp hlast
    cases hid

theorem memory_answers_suffix_two :
    memory.getMessages (memory.run (LRUCache.ofCapacity 4 (by decide)) fiveInserts) 5 (-100) <:+
        postgres.getMessages (postgres.run [] fiveInserts) 5 (-100) ∧
      memory.getMessages (memory.run (LRUCache.ofCapacity 4 (by decide)) fiveInserts) 8 (-100) =
        postgres.getMessages (postgres.run [] fiveInserts) 8 (-100) :=
  ⟨((memory_answers_suffix (by decide) _ (-100)).1 5).1,
    ((memory_answers_suffix (by decide) _ (-100)).1 8).2 lasting_eight⟩

example : memory.getMessages (memory.run (LRUCache.ofCapacity 4 (by decide)) fiveInserts) 5 (-100) = [] := by
  decide +kernel

theorem memory_answers_same_two :
    memory.getMessages (memory.run (LRUCache.ofCapacity 2 (by decide))
        [.insert ⟨5, -100, 1, -200⟩, .insert ⟨6, -100, 2, -200⟩]) 5 (-100) =
      postgres.getMessages (postgres.run []
        [.insert ⟨5, -100, 1, -200⟩, .insert ⟨6, -100, 2, -200⟩]) 5 (-100) :=
  (memory_answers_same (by decide) _ (by unfold Few; decide) (-100)).1 5

end TgPlatform.Mirror
