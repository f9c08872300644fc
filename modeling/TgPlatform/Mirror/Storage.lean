import TgPlatform.Lib.Fields
import TgPlatform.Lib.Recency

/-! # Message id mappings

Which message of a mirror came from which message of its source is kept in a
table of the database or in memory, where room is made for new messages by
dropping those used longest ago.
-/

namespace TgPlatform.Mirror

/-! ## A dictionary of limited length -/

/-- `LRUCache`. -/
structure LRUCache (κ ν : Type) [DecidableEq κ] where
  capacity : ℕ
  keepLast : ℕ
  items : List (κ × ν)
  keepLast_pos : 0 < keepLast
  keepLast_le : keepLast ≤ capacity
  nodup : (Recency.keys items).Nodup
  length_le : items.length ≤ capacity

namespace LRUCache

variable {κ ν : Type} [DecidableEq κ]

/-- An empty cache that keeps half of its items when it is purged, but one at least. -/
def ofCapacity (capacity : ℕ) (h : 0 < capacity) : LRUCache κ ν where
  capacity := capacity
  keepLast := max 1 (capacity / 2)
  items := []
  keepLast_pos := by omega
  keepLast_le := by omega
  nodup := List.nodup_nil
  length_le := Nat.zero_le _

def purged (capacity keepLast : ℕ) (l : List (κ × ν)) : List (κ × ν) :=
  if capacity < l.length then Recency.purge keepLast l else l

variable {c : LRUCache κ ν} {k k' : κ} {v : ν} {f : ν → ν}

omit [DecidableEq κ] in
theorem purged_sublist (capacity keepLast : ℕ) (l : List (κ × ν)) :
    (purged capacity keepLast l).Sublist l := by
  unfold purged
  split
  · exact Recency.purge_sublist keepLast l
  · exact List.Sublist.refl l

/-- `__setitem__`. -/
def setItem (c : LRUCache κ ν) (k : κ) (v : ν) : LRUCache κ ν where
  capacity := c.capacity
  keepLast := c.keepLast
  items := purged c.capacity c.keepLast (Recency.put c.items k v)
  keepLast_pos := c.keepLast_pos
  keepLast_le := c.keepLast_le
  nodup := (Recency.nodup_put c.nodup).sublist ((purged_sublist ..).map Prod.fst)
  length_le := by
    have hkeep := c.keepLast_le
    unfold purged
    split
    · rw [Recency.length_purge]
      omega
    · omega

theorem length_put_of_mem (h : k ∈ Recency.keys c.items) :
    (Recency.put c.items k v).length ≤ c.items.length := by
  have hsub : Recency.keys (Recency.put c.items k v) ⊆ Recency.keys c.items := by
    intro x hx
    rcases Recency.mem_keys_put.mp hx with rfl | hx
    · exact h
    · exact hx
  have hle := (List.subperm_of_subset (Recency.nodup_put c.nodup) hsub).length_le
  rwa [Recency.length_keys, Recency.length_keys] at hle

/-- `move_to_end` of a present key. -/
def moveToEnd (c : LRUCache κ ν) (k : κ) (v : ν) (h : k ∈ Recency.keys c.items) :
    LRUCache κ ν where
  capacity := c.capacity
  keepLast := c.keepLast
  items := Recency.put c.items k v
  keepLast_pos := c.keepLast_pos
  keepLast_le := c.keepLast_le
  nodup := Recency.nodup_put c.nodup
  length_le := (length_put_of_mem h).trans c.length_le

/-- `c.setdefault(k, v)`: it reads a present key through `__getitem__` and sets an absent one
through `__setitem__`. -/
def setdefault (c : LRUCache κ ν) (k : κ) (v : ν) : LRUCache κ ν :=
  match h : Recency.get? c.items k with
  | some w => c.moveToEnd k w (by
      by_contra hk
      rw [Recency.get?_eq_none.mpr hk] at h
      cases h)
  | none => c.setItem k v

/-- `c.get(k)`, the method of `dict`, which moves nothing. -/
def get? (c : LRUCache κ ν) (k : κ) : Option ν := Recency.get? c.items k

def mutate (c : LRUCache κ ν) (k : κ) (f : ν → ν) : LRUCache κ ν where
  capacity := c.capacity
  keepLast := c.keepLast
  items := Recency.mutate c.items k f
  keepLast_pos := c.keepLast_pos
  keepLast_le := c.keepLast_le
  nodup := by
    rw [Recency.keys_mutate]
    exact c.nodup
  length_le := by
    rw [← Recency.length_keys, Recency.keys_mutate, Recency.length_keys]
    exact c.length_le

/-- `c.pop(k, None)`. -/
def pop (c : LRUCache κ ν) (k : κ) : LRUCache κ ν where
  capacity := c.capacity
  keepLast := c.keepLast
  items := Recency.erase c.items k
  keepLast_pos := c.keepLast_pos
  keepLast_le := c.keepLast_le
  nodup := Recency.nodup_erase c.nodup
  length_le := (List.length_filter_le _ _).trans c.length_le

theorem items_setdefault (c : LRUCache κ ν) (k : κ) (v : ν) :
    (∃ w, c.get? k = some w ∧ (c.setdefault k v).items = Recency.put c.items k w) ∨
    (c.get? k = none ∧
      (c.setdefault k v).items = purged c.capacity c.keepLast (Recency.put c.items k v)) := by
  unfold setdefault get?
  split
  · rename_i w hw
    exact .inl ⟨w, hw, rfl⟩
  · rename_i hnone
    exact .inr ⟨hnone, rfl⟩

@[simp] theorem keepLast_setdefault : (c.setdefault k v).keepLast = c.keepLast := by
  unfold setdefault
  split <;> rfl

@[simp] theorem capacity_setdefault : (c.setdefault k v).capacity = c.capacity := by
  unfold setdefault
  split <;> rfl

end LRUCache

/-! ## The two databases -/

structure MirrorMessage where
  originalId : ℤ
  originalChannel : ℤ
  mirrorId : ℤ
  mirrorChannel : ℤ
  deriving DecidableEq, Repr

/-- `__build_message_key`. -/
def buildMessageKey (originalId originalChannel : ℤ) : String :=
  s!"{originalChannel}:{originalId}"

def MirrorMessage.key (e : MirrorMessage) : String := buildMessageKey e.originalId e.originalChannel

/-- A database of `MirrorMessage` objects. -/
structure Database (σ : Type) where
  insert : σ → MirrorMessage → σ
  insertBatch : σ → List MirrorMessage → σ
  getMessages : σ → ℤ → ℤ → List MirrorMessage
  getMessagesBatch : σ → List ℤ → ℤ → List MirrorMessage
  deleteMessages : σ → ℤ → ℤ → σ
  deleteMessagesBatch : σ → List ℤ → ℤ → σ

abbrev InMemoryDatabase : Type := LRUCache String (List MirrorMessage)

namespace InMemoryDatabase

def insert (db : InMemoryDatabase) (e : MirrorMessage) : InMemoryDatabase :=
  (db.setdefault e.key []).mutate e.key fun l => l ++ [e]

def getMessages (db : InMemoryDatabase) (originalId originalChannel : ℤ) : List MirrorMessage :=
  (db.get? (buildMessageKey originalId originalChannel)).getD []

def deleteMessages (db : InMemoryDatabase) (originalId originalChannel : ℤ) : InMemoryDatabase :=
  db.pop (buildMessageKey originalId originalChannel)

end InMemoryDatabase

/-- `InMemoryDatabase`. -/
def memory : Database InMemoryDatabase where
  insert := InMemoryDatabase.insert
  insertBatch := List.foldl InMemoryDatabase.insert
  getMessages := InMemoryDatabase.getMessages
  getMessagesBatch db ids channel := ids.flatMap fun id => db.getMessages id channel
  deleteMessages := InMemoryDatabase.deleteMessages
  deleteMessagesBatch db ids channel := ids.foldl (fun db id => db.deleteMessages id channel) db

/-- The table `binding_id`, its rows in the order of their insertion. -/
abbrev PostgresDatabase : Type := List MirrorMessage

/-- `PostgresDatabase`. -/
def postgres : Database PostgresDatabase where
  insert rows e := rows ++ [e]
  insertBatch rows l := rows ++ l
  getMessages rows id channel :=
    rows.filter fun e => e.originalChannel = channel ∧ e.originalId = id
  getMessagesBatch rows ids channel :=
    rows.filter fun e => e.originalChannel = channel ∧ e.originalId ∈ ids
  deleteMessages rows id channel :=
    rows.filter fun e => ¬ (e.originalChannel = channel ∧ e.originalId = id)
  deleteMessagesBatch rows ids channel :=
    rows.filter fun e => ¬ (e.originalChannel = channel ∧ e.originalId ∈ ids)

/-! ## Runs of calls -/

inductive StorageCall
  | insert (e : MirrorMessage)
  | insertBatch (l : List MirrorMessage)
  | getMessages (originalId originalChannel : ℤ)
  | getMessagesBatch (originalIds : List ℤ) (originalChannel : ℤ)
  | deleteMessages (originalId originalChannel : ℤ)
  | deleteMessagesBatch (originalIds : List ℤ) (originalChannel : ℤ)
  deriving DecidableEq, Repr

namespace Database

variable {σ : Type} (d : Database σ)

def exec (s : σ) : StorageCall → σ
  | .insert e => d.insert s e
  | .insertBatch l => d.insertBatch s l
  | .getMessages .. | .getMessagesBatch .. => s
  | .deleteMessages id channel => d.deleteMessages s id channel
  | .deleteMessagesBatch ids channel => d.deleteMessagesBatch s ids channel

def answer (s : σ) : StorageCall → List MirrorMessage
  | .getMessages id channel => d.getMessages s id channel
  | .getMessagesBatch ids channel => d.getMessagesBatch s ids channel
  | _ => []

def run (s : σ) (calls : List StorageCall) : σ := calls.foldl d.exec s

end Database

theorem buildMessageKey_inj {i i' c c' : ℤ} :
    buildMessageKey i c = buildMessageKey i' c' ↔ c = c' ∧ i = i' := by
  constructor
  · intro h
    have htext : ∀ i c : ℤ, (buildMessageKey i c).toList =
        (toString c).toList ++ ':' :: (toString i).toList := by
      intro i c
      have hcolon : (toString ":").toList = [':'] := rfl
      simp only [buildMessageKey, String.toList_append, hcolon]
      exact List.append_assoc ..
    have hchars := congrArg String.toList h
    rw [htext, htext] at hchars
    have hplain := Fields.not_mem_toString_int (d := ':') (by decide) (by decide)
    obtain ⟨hc, hi⟩ := Fields.first_eq (hplain c) (hplain c') hchars
    exact ⟨Fields.toString_int_injective hc, Fields.toString_int_injective hi⟩
  · rintro ⟨rfl, rfl⟩
    rfl

/-! ## Calls as writes of single messages -/

/-- A message that is inserted, or all messages of an original that are deleted. -/
inductive Write
  | put (e : MirrorMessage)
  | drop (originalId originalChannel : ℤ)

namespace Write

def key : Write → String
  | put e => e.key
  | drop id channel => buildMessageKey id channel

@[simp] theorem key_put (e : MirrorMessage) : (put e).key = e.key := rfl

@[simp] theorem key_drop (id channel : ℤ) : (drop id channel).key = buildMessageKey id channel := rfl

def inserted : Write → Option String
  | put e => some e.key
  | drop .. => none

end Write

def StorageCall.writes : StorageCall → List Write
  | .insert e => [.put e]
  | .insertBatch l => l.map .put
  | .getMessages .. | .getMessagesBatch .. => []
  | .deleteMessages id channel => [.drop id channel]
  | .deleteMessagesBatch ids channel => ids.map fun id => .drop id channel

def writes (calls : List StorageCall) : List Write := calls.flatMap StorageCall.writes

def InMemoryDatabase.write (db : InMemoryDatabase) : Write → InMemoryDatabase
  | .put e => db.insert e
  | .drop id channel => db.deleteMessages id channel

def PostgresDatabase.write (rows : PostgresDatabase) : Write → PostgresDatabase
  | .put e => postgres.insert rows e
  | .drop id channel => postgres.deleteMessages rows id channel

theorem memory_exec (db : InMemoryDatabase) (call : StorageCall) :
    memory.exec db call = call.writes.foldl InMemoryDatabase.write db := by
  cases call with
  | insert e => rfl
  | insertBatch l => simp only [StorageCall.writes, List.foldl_map]; rfl
  | getMessages id channel => rfl
  | getMessagesBatch ids channel => rfl
  | deleteMessages id channel => rfl
  | deleteMessagesBatch ids channel => simp only [StorageCall.writes, List.foldl_map]; rfl

theorem postgres_exec (rows : PostgresDatabase) (call : StorageCall) :
    postgres.exec rows call = call.writes.foldl PostgresDatabase.write rows := by
  cases call with
  | insert e => rfl
  | insertBatch l =>
    change rows ++ l = _
    simp only [StorageCall.writes, List.foldl_map]
    induction l generalizing rows with
    | nil => exact List.append_nil rows
    | cons e l ih =>
      rw [List.foldl_cons, ← ih, List.append_cons]
      rfl
  | getMessages id channel => rfl
  | getMessagesBatch ids channel => rfl
  | deleteMessages id channel => rfl
  | deleteMessagesBatch ids channel =>
    change rows.filter _ = _
    simp only [StorageCall.writes, List.foldl_map]
    induction ids generalizing rows with
    | nil => simp
    | cons id ids ih =>
      rw [List.foldl_cons, ← ih]
      change _ = (rows.filter _).filter _
      rw [List.filter_filter]
      refine List.filter_congr fun e _ => ?_
      simp only [List.mem_cons, ← Bool.decide_and, decide_eq_decide]
      tauto

theorem memory_run (db : InMemoryDatabase) (calls : List StorageCall) :
    memory.run db calls = (writes calls).foldl InMemoryDatabase.write db := by
  induction calls generalizing db with
  | nil => rfl
  | cons call calls ih =>
    rw [Database.run, List.foldl_cons, memory_exec, writes, List.flatMap_cons, List.foldl_append]
    exact ih _

theorem postgres_run (rows : PostgresDatabase) (calls : List StorageCall) :
    postgres.run rows calls = (writes calls).foldl PostgresDatabase.write rows := by
  induction calls generalizing rows with
  | nil => rfl
  | cons call calls ih =>
    rw [Database.run, List.foldl_cons, postgres_exec, writes, List.flatMap_cons, List.foldl_append]
    exact ih _

/-! ## The rows of one original -/

def rowsOf (rows : PostgresDatabase) (k : String) : List MirrorMessage :=
  rows.filter fun e => e.key = k

variable {rows : PostgresDatabase} {e : MirrorMessage} {k : String} {w : Write}

theorem getMessages_eq_rowsOf (id channel : ℤ) :
    postgres.getMessages rows id channel = rowsOf rows (buildMessageKey id channel) := by
  refine List.filter_congr fun e _ => ?_
  rw [MirrorMessage.key, decide_eq_decide, buildMessageKey_inj]

theorem rowsOf_put_self : rowsOf (PostgresDatabase.write rows (.put e)) e.key =
    rowsOf rows e.key ++ [e] := by
  simp [rowsOf, PostgresDatabase.write, postgres]

theorem rowsOf_drop_self {id channel : ℤ} :
    rowsOf (PostgresDatabase.write rows (.drop id channel)) (buildMessageKey id channel) = [] := by
  simp only [rowsOf, PostgresDatabase.write, postgres, List.filter_filter]
  refine List.filter_eq_nil_iff.mpr fun e _ => ?_
  simp only [MirrorMessage.key, buildMessageKey_inj]
  simp

theorem rowsOf_write_of_ne (h : k ≠ w.key) :
    rowsOf (PostgresDatabase.write rows w) k = rowsOf rows k := by
  cases w with
  | put e =>
    have hne : e.key ≠ k := Ne.symm h
    simp [rowsOf, PostgresDatabase.write, postgres, hne]
  | drop id channel =>
    simp only [rowsOf, PostgresDatabase.write, postgres, List.filter_filter]
    refine List.filter_congr fun e _ => ?_
    by_cases he : e.key = k
    · have hother : ¬ (e.originalChannel = channel ∧ e.originalId = id) := by
        rw [← buildMessageKey_inj]
        exact fun heq => h (he.symm.trans heq)
      simp [he, hother]
    · simp [he]

end TgPlatform.Mirror
