import TgPlatform.Import.Tdata

/-! # The map of a desktop client

A map is a sequence of blocks, each a type and what the type prescribes. The
scanner accepts the sequences of well-formed blocks and nothing else, and keeps
the content of the last block that holds an authorization.
-/

namespace TgPlatform

inductive LskKind
  | counted (size : ℕ)
  | selfSerialized
  | byteArray
  | fixed (size : ℕ)
  deriving DecidableEq, Repr

/-- The kind of the block of a type, if the type is known. -/
def lskKind (keyType : ℕ) : Option LskKind :=
  -- LSK_DRAFT, LSK_DRAFT_POSITION
  if keyType ∈ [0x01, 0x02] then some (.counted 16)
  -- LSK_LEGACY_IMAGES, LSK_LEGACY_STICKER_IMAGES, LSK_LEGACY_AUDIOS
  else if keyType ∈ [0x03, 0x05, 0x06] then some (.counted 28)
  -- LSK_SELF_SERIALIZED
  else if keyType = 0x15 then some .selfSerialized
  -- LSK_BACKGROUND_OLD_OLD
  else if keyType = 0x08 then some .byteArray
  -- LSK_LOCATIONS, LSK_RECENT_STICKERS_OLD, LSK_USER_SETTINGS, LSK_RECENT_HASHTAGS_AND_BOTS,
  -- LSK_STICKERS_OLD, LSK_SAVED_PEERS_OLD, LSK_REPORT_SPAM_STATUSES_OLD, LSK_SAVED_GIFS_OLD,
  -- LSK_SAVED_GIFS, LSK_TRUSTED_BOTS, LSK_FAVED_STICKERS, LSK_EXPORT_SETTINGS
  else if keyType ∈ [0x04, 0x07, 0x09, 0x0A, 0x0B, 0x0C, 0x0D, 0x0E, 0x0F, 0x11, 0x12, 0x13]
    then some (.fixed 8)
  -- LSK_BACKGROUND_OLD
  else if keyType = 0x14 then some (.fixed 16)
  -- LSK_STICKERS_KEYS
  else if keyType = 0x10 then some (.fixed 32)
  -- LSK_MASKS_KEYS
  else if keyType = 0x16 then some (.fixed 24)
  else none

open TdataStream

/-- What follows the type; the content of an authorization takes the place of the one before. -/
def readLskBody (selfSerialized : Option (List UInt8)) : LskKind → TdataReader (Option (List UInt8))
  | .counted size => fun b => do
    let count ← u32 b
    let _ ← raw (size * count) b
    return selfSerialized
  | .selfSerialized => fun b => do
    let content ← qbytearray b
    return some content
  | .byteArray => fun b => do
    let _ ← qbytearray b
    return selfSerialized
  | .fixed size => fun b => do
    let _ ← raw size b
    return selfSerialized

/-- A round of `_parse_map_payload`. -/
def readLskBlock (selfSerialized : Option (List UInt8)) : TdataReader (Option (List UInt8)) :=
  fun b => do
  let keyType ← u32 b
  match lskKind keyType with
  | some kind => readLskBody selfSerialized kind b
  | none => Txn.throw (.tdata ("unknown lsk block 0x" ++ String.ofList (Nat.toDigits 16 keyType)))

/-- The loop of `_parse_map_payload`. -/
def scanMap : TdataReader (Option (List UInt8)) := fun b =>
  Reader.untilEnd .endless readLskBlock b.length none b

/-- `_parse_map_payload`. -/
def parseMapPayload (payload : List UInt8) : Except TdataFailure (Option SelfSerialized) := do
  match ← (scanMap payload).answer 0 with
  | none => return none
  | some blob => return some (← parseSelfSerialized blob)

/-! ## The grammar -/

/-- The bytes of a byte array: its length and its content, or the mark of the empty one. -/
inductive IsByteArray : List UInt8 → List UInt8 → Prop
  | null : IsByteArray (bigEndian 4 0xFFFFFFFF) []
  | content (content : List UInt8) (hlength : content.length < 0xFFFFFFFF) :
      IsByteArray (bigEndian 4 content.length ++ content) content

/-- The types of the blocks that hold one key, eight bytes long. -/
def keyTypes : List ℕ := [0x04, 0x07, 0x09, 0x0A, 0x0B, 0x0C, 0x0D, 0x0E, 0x0F, 0x11, 0x12, 0x13]

/-- A known type with the bytes that follow it, and their content if they hold an authorization. -/
inductive IsLskBody : ℕ → List UInt8 → Option (List UInt8) → Prop
  | drafts {keyType count : ℕ} {entries : List UInt8} (htype : keyType = 0x01 ∨ keyType = 0x02)
      (hcount : count < 2 ^ 32) (hlength : entries.length = 16 * count) :
      IsLskBody keyType (bigEndian 4 count ++ entries) none
  | legacy {keyType count : ℕ} {entries : List UInt8}
      (htype : keyType = 0x03 ∨ keyType = 0x05 ∨ keyType = 0x06)
      (hcount : count < 2 ^ 32) (hlength : entries.length = 28 * count) :
      IsLskBody keyType (bigEndian 4 count ++ entries) none
  | key {keyType : ℕ} {w : List UInt8} (htype : keyType ∈ keyTypes) (hlength : w.length = 8) :
      IsLskBody keyType w none
  | backgroundOldOld {w content : List UInt8} (hw : IsByteArray w content) : IsLskBody 0x08 w none
  | stickersKeys {w : List UInt8} (hlength : w.length = 32) : IsLskBody 0x10 w none
  | backgroundOld {w : List UInt8} (hlength : w.length = 16) : IsLskBody 0x14 w none
  | selfSerialized {w content : List UInt8} (hw : IsByteArray w content) : IsLskBody 0x15 w (some content)
  | masksKeys {w : List UInt8} (hlength : w.length = 24) : IsLskBody 0x16 w none

inductive IsLskBlock : List UInt8 → Option (List UInt8) → Prop
  | block {keyType : ℕ} {body : List UInt8} {content : Option (List UInt8)} (htype : keyType < 2 ^ 32)
      (hbody : IsLskBody keyType body content) : IsLskBlock (bigEndian 4 keyType ++ body) content

/-- A concatenation of blocks, with the content of the last authorization. -/
def IsMap (payload : List UInt8) (content : Option (List UInt8)) : Prop :=
  ∃ blocks : List (List UInt8 × Option (List UInt8)), (∀ x ∈ blocks, IsLskBlock x.1 x.2) ∧
    payload = (blocks.map Prod.fst).flatten ∧ content = (blocks.filterMap Prod.snd).getLast?

/-! ## What the scanner accepts -/

/-- The bytes that a kind prescribes, with the content if they hold an authorization. -/
inductive LskKind.Prescribes : LskKind → List UInt8 → Option (List UInt8) → Prop
  | counted {size count : ℕ} {entries : List UInt8} (hcount : count < 2 ^ 32)
      (hlength : entries.length = size * count) :
      Prescribes (.counted size) (bigEndian 4 count ++ entries) none
  | selfSerialized {w content : List UInt8} (hw : IsByteArray w content) :
      Prescribes .selfSerialized w (some content)
  | byteArray {w content : List UInt8} (hw : IsByteArray w content) : Prescribes .byteArray w none
  | fixed {size : ℕ} {w : List UInt8} (hlength : w.length = size) : Prescribes (.fixed size) w none

theorem isLskBody_iff {keyType : ℕ} {w : List UInt8} {content : Option (List UInt8)} :
    IsLskBody keyType w content ↔ ∃ kind, lskKind keyType = some kind ∧ kind.Prescribes w content := by
  constructor
  · intro h
    cases h with
    | drafts htype hcount hlength => rcases htype with rfl | rfl <;> exact ⟨_, rfl, .counted hcount hlength⟩
    | legacy htype hcount hlength =>
      rcases htype with rfl | rfl | rfl <;> exact ⟨_, rfl, .counted hcount hlength⟩
    | key htype hlength =>
      simp only [keyTypes, List.mem_cons, List.not_mem_nil, or_false] at htype
      rcases htype with rfl | rfl | rfl | rfl | rfl | rfl | rfl | rfl | rfl | rfl | rfl | rfl <;>
        exact ⟨_, rfl, .fixed hlength⟩
    | backgroundOldOld hw => exact ⟨_, rfl, .byteArray hw⟩
    | selfSerialized hw => exact ⟨_, rfl, .selfSerialized hw⟩
    | stickersKeys hlength | backgroundOld hlength | masksKeys hlength => exact ⟨_, rfl, .fixed hlength⟩
  · rintro ⟨kind, hkind, hbody⟩
    unfold lskKind at hkind
    split_ifs at hkind with htype htype htype htype htype htype htype htype
    all_goals cases hkind; cases hbody
    · exact .drafts (by simpa using htype) ‹_› ‹_›
    · exact .legacy (by simpa using htype) ‹_› ‹_›
    · exact htype ▸ .selfSerialized ‹_›
    · exact htype ▸ .backgroundOldOld ‹_›
    · exact .key htype ‹_›
    · exact htype ▸ .backgroundOld ‹_›
    · exact htype ▸ .stickersKeys ‹_›
    · exact htype ▸ .masksKeys ‹_›

theorem recognizes_qbytearray : Reader.Recognizes qbytearray IsByteArray := by
  have hrest : ∀ n, Reader.Recognizes (fun b => if n = 0xFFFFFFFF then return [] else raw n b)
      fun w a => if n = 0xFFFFFFFF then w = [] ∧ a = [] else w.length = n ∧ a = w := by
    intro n
    split
    · exact .ret []
    · exact recognizes_raw n
  refine (recognizes_u32.bind hrest).congr fun w a => ?_
  constructor
  · rintro ⟨_, v, n, rfl, ⟨rfl, hn⟩, hv⟩
    split at hv
    · rename_i hnull
      obtain ⟨rfl, rfl⟩ := hv
      rw [hnull, List.append_nil]
      exact .null
    · obtain ⟨rfl, rfl⟩ := hv
      exact .content a (by omega)
  · intro h
    cases h with
    | null => exact ⟨_, [], 0xFFFFFFFF, (List.append_nil _).symm, ⟨rfl, by decide⟩, by simp⟩
    | content _ hlength =>
      refine ⟨_, a, a.length, rfl, ⟨rfl, by omega⟩, ?_⟩
      rw [if_neg (by omega)]
      exact ⟨rfl, rfl⟩

theorem recognizes_readLskBody (selfSerialized : Option (List UInt8)) (kind : LskKind) :
    Reader.Recognizes (readLskBody selfSerialized kind) fun w s' =>
      ∃ content, kind.Prescribes w content ∧ s' = content.or selfSerialized := by
  cases kind with
  | counted size =>
    refine (recognizes_u32.bind fun count => (recognizes_raw (size * count)).bind fun _ =>
      .ret selfSerialized).congr fun w s' => ?_
    constructor
    · rintro ⟨_, _, count, rfl, ⟨rfl, hcount⟩, entries, _, _, rfl, ⟨hlength, -⟩, rfl, rfl⟩
      rw [List.append_nil]
      exact ⟨none, .counted hcount hlength, rfl⟩
    · rintro ⟨content, hbody, rfl⟩
      cases hbody with
      | @counted _ count entries hcount hlength =>
        exact ⟨_, entries, count, rfl, ⟨rfl, hcount⟩, entries, [], entries, (List.append_nil _).symm,
          ⟨hlength, rfl⟩, rfl, rfl⟩
  | selfSerialized =>
    refine (recognizes_qbytearray.bind fun content => .ret (some content)).congr fun w s' => ?_
    constructor
    · rintro ⟨w, _, content, rfl, hw, rfl, rfl⟩
      rw [List.append_nil]
      exact ⟨some content, .selfSerialized hw, rfl⟩
    · rintro ⟨content, hbody, rfl⟩
      cases hbody with
      | selfSerialized hw => exact ⟨w, [], _, (List.append_nil _).symm, hw, rfl, rfl⟩
  | byteArray =>
    refine (recognizes_qbytearray.bind fun _ => .ret selfSerialized).congr fun w s' => ?_
    constructor
    · rintro ⟨w, _, content, rfl, hw, rfl, rfl⟩
      rw [List.append_nil]
      exact ⟨none, .byteArray hw, rfl⟩
    · rintro ⟨content, hbody, rfl⟩
      cases hbody with
      | byteArray hw => exact ⟨w, [], _, (List.append_nil _).symm, hw, rfl, rfl⟩
  | fixed size =>
    refine ((recognizes_raw size).bind fun _ => .ret selfSerialized).congr fun w s' => ?_
    constructor
    · rintro ⟨w, _, _, rfl, ⟨hlength, -⟩, rfl, rfl⟩
      rw [List.append_nil]
      exact ⟨none, .fixed hlength, rfl⟩
    · rintro ⟨content, hbody, rfl⟩
      cases hbody with
      | fixed hlength => exact ⟨w, [], w, (List.append_nil _).symm, ⟨hlength, rfl⟩, rfl, rfl⟩

theorem recognizes_readLskBlock (selfSerialized : Option (List UInt8)) :
    Reader.Recognizes (readLskBlock selfSerialized) fun w s' =>
      ∃ content, IsLskBlock w content ∧ s' = content.or selfSerialized := by
  have hrest : ∀ keyType, Reader.Recognizes (fun b => match lskKind keyType with
      | some kind => readLskBody selfSerialized kind b
      | none => Txn.throw (.tdata ("unknown lsk block 0x" ++ String.ofList (Nat.toDigits 16 keyType))))
        fun w s' => ∃ content, IsLskBody keyType w content ∧ s' = content.or selfSerialized := by
    intro keyType
    simp only [isLskBody_iff]
    cases lskKind keyType with
    | some kind =>
      refine (recognizes_readLskBody selfSerialized kind).congr fun w s' => ?_
      simp
    | none =>
      refine (Reader.Recognizes.throw _).congr fun w s' => ?_
      simp
  refine (recognizes_u32.bind hrest).congr fun w s' => ?_
  constructor
  · rintro ⟨_, _, keyType, rfl, ⟨rfl, htype⟩, content, hbody, rfl⟩
    exact ⟨content, .block htype hbody, rfl⟩
  · rintro ⟨content, hblock, rfl⟩
    cases hblock with
    | @block keyType body _ htype hbody => exact ⟨_, body, keyType, rfl, ⟨rfl, htype⟩, content, hbody, rfl⟩

theorem IsLskBlock.ne_nil {w : List UInt8} {content : Option (List UInt8)}
    (h : IsLskBlock w content) : w ≠ [] := by
  cases h with
  | @block keyType =>
    intro hnil
    have hlength := congrArg List.length (List.append_eq_nil_iff.mp hnil).1
    rw [length_bigEndian] at hlength
    cases hlength

theorem getLast?_contents_cons (x : List UInt8 × Option (List UInt8))
    (blocks : List (List UInt8 × Option (List UInt8))) (s : Option (List UInt8)) :
    ((x :: blocks).filterMap Prod.snd).getLast?.or s =
      (blocks.filterMap Prod.snd).getLast?.or (x.2.or s) := by
  obtain ⟨w, content⟩ := x
  cases content with
  | none => rfl
  | some content =>
    have hcons : ((w, some content) :: blocks).filterMap Prod.snd =
        content :: blocks.filterMap Prod.snd :=
      rfl
    rw [hcons, List.getLast?_cons]
    cases (blocks.filterMap Prod.snd).getLast? <;> rfl

theorem words_iff {s t : Option (List UInt8)} {payload : List UInt8} :
    Reader.Words (fun s w s' => ∃ content, IsLskBlock w content ∧ s' = content.or s) s payload t ↔
      ∃ content, IsMap payload content ∧ t = content.or s := by
  constructor
  · intro h
    induction h with
    | nil s => exact ⟨none, ⟨[], by simp, rfl, rfl⟩, rfl⟩
    | cons hw _ ih =>
      obtain ⟨content, hblock, rfl⟩ := hw
      obtain ⟨_, ⟨blocks, hblocks, rfl, rfl⟩, rfl⟩ := ih
      refine ⟨_, ⟨(_, content) :: blocks, List.forall_mem_cons.mpr ⟨hblock, hblocks⟩, rfl, rfl⟩, ?_⟩
      exact (getLast?_contents_cons (_, content) blocks _).symm
  · rintro ⟨_, ⟨blocks, hblocks, rfl, rfl⟩, rfl⟩
    induction blocks generalizing s with
    | nil => exact .nil s
    | cons x blocks ih =>
      obtain ⟨hblock, hblocks⟩ := List.forall_mem_cons.mp hblocks
      rw [getLast?_contents_cons]
      exact .cons ⟨x.2, hblock, rfl⟩ (ih hblocks)

theorem readsOn_readLskBlock (selfSerialized : Option (List UInt8)) :
    Reader.ReadsOn (readLskBlock selfSerialized) := by
  have hu32 : Reader.ReadsOn u32 := (Reader.ReadsOn.take _ 4).bind fun w => .ret (ofBigEndian w)
  have hbytes : Reader.ReadsOn qbytearray := by
    refine hu32.bind fun n => ?_
    split
    · exact .ret []
    · exact .take _ n
  refine hu32.bind fun keyType => ?_
  cases lskKind keyType with
  | none => exact .throw _
  | some kind =>
    cases kind with
    | counted size =>
      exact hu32.bind fun count => (Reader.ReadsOn.take _ (size * count)).bind fun _ =>
        .ret selfSerialized
    | selfSerialized => exact hbytes.bind fun content => .ret (some content)
    | byteArray => exact hbytes.bind fun _ => .ret selfSerialized
    | fixed size => exact (Reader.ReadsOn.take _ size).bind fun _ => .ret selfSerialized

/-- A `TDataError`. -/
def TdataFailure.IsTdata (e : TdataFailure) : Prop := ∃ detail, e = .tdata detail

theorem failsOnly_readLskBlock (selfSerialized : Option (List UInt8)) :
    Reader.FailsOnly TdataFailure.IsTdata (readLskBlock selfSerialized) := by
  have hraw : ∀ n, Reader.FailsOnly TdataFailure.IsTdata (raw n) := .take fun _ _ => ⟨_, rfl⟩
  have hu32 : Reader.FailsOnly TdataFailure.IsTdata u32 := (hraw 4).bind fun w => .ret (ofBigEndian w)
  have hbytes : Reader.FailsOnly TdataFailure.IsTdata qbytearray := by
    refine hu32.bind fun n => ?_
    split
    · exact .ret []
    · exact hraw n
  refine hu32.bind fun keyType => ?_
  cases lskKind keyType with
  | none => exact .throw ⟨_, rfl⟩
  | some kind =>
    cases kind with
    | counted size =>
      exact hu32.bind fun count => (hraw (size * count)).bind fun _ => .ret selfSerialized
    | selfSerialized => exact hbytes.bind fun content => .ret (some content)
    | byteArray => exact hbytes.bind fun _ => .ret selfSerialized
    | fixed size => exact (hraw size).bind fun _ => .ret selfSerialized

section Scanning

variable {payload : List UInt8} {content : Option (List UInt8)}

theorem block_ne_nil (s : Option (List UInt8)) (w : List UInt8) (s' : Option (List UInt8))
    (h : ∃ content, IsLskBlock w content ∧ s' = content.or s) : w ≠ [] := by
  obtain ⟨content, hblock, -⟩ := h
  exact hblock.ne_nil

theorem scanMap_eq_ok : (scanMap payload).answer 0 = .ok content ↔ IsMap payload content := by
  have hloop : ∀ j,
      (scanMap payload 0).2 = .ok (content, j) ↔ Reader.Words _ none payload content ∧ j = _ :=
    fun j => @Reader.untilEnd_eq_ok _ _ _ TdataFailure.endless _ _ recognizes_readLskBlock block_ne_nil
      payload.length none content [] payload j le_rfl
  rw [Reader.answer_eq_ok]
  simp only [hloop, words_iff, Option.or_none, exists_and_left, exists_eq, and_true, exists_eq_right']

/-- A map that is no concatenation of blocks is refused with a `TDataError`: the fuel does not run out. -/
theorem scanMap_refuses (h : ∀ content, ¬IsMap payload content) :
    ∃ detail, (scanMap payload).answer 0 = .error (.tdata detail) := by
  cases hanswer : (scanMap payload).answer 0 with
  | ok content => exact absurd (scanMap_eq_ok.mp hanswer) (h content)
  | error e =>
    have hrun : (scanMap payload 0).2 = .error e := Reader.answer_eq_error.mp hanswer
    obtain ⟨s, b, i, hround⟩ := @Reader.exists_of_untilEnd_eq_error _ _ _ TdataFailure.endless _ _
      recognizes_readLskBlock block_ne_nil payload.length none [] payload e le_rfl hrun
    obtain ⟨detail, rfl⟩ := failsOnly_readLskBlock s b i e hround
    exact ⟨detail, rfl⟩

end Scanning

/-- The scanner accepts exactly the concatenations of blocks, with the content of the last authorization,
which is then decoded; it refuses anything else with a `TDataError`; and the pieces that it reads follow
one another. -/
theorem map_accepts_grammar (payload : List UInt8) :
    (∀ content, (scanMap payload).answer 0 = .ok content ↔ IsMap payload content) ∧
    ((∀ content, ¬IsMap payload content) →
      ∃ detail, (scanMap payload).answer 0 = .error (.tdata detail)) ∧
    (∃ j, j ≤ payload.length ∧ Reader.Consecutive 0 (scanMap payload 0).1 j) ∧
    (IsMap payload none → parseMapPayload payload = .ok none) ∧
    (∀ blob, IsMap payload (some blob) → parseMapPayload payload = (parseSelfSerialized blob).map some) ∧
    ((∀ content, ¬IsMap payload content) →
      ∃ detail, parseMapPayload payload = .error (.tdata detail)) := by
  refine ⟨fun content => scanMap_eq_ok, scanMap_refuses, ?_, fun hmap => ?_,
    fun blob hmap => ?_, fun hnot => ?_⟩
  · obtain ⟨j, hj, hlog, -⟩ := @Reader.ReadsOn.untilEnd UInt8 TdataFailure _
      TdataFailure.endless _ readsOn_readLskBlock payload.length none payload 0 (Nat.zero_le _)
    exact ⟨j, hj, hlog⟩
  · unfold parseMapPayload
    rw [scanMap_eq_ok.mpr hmap]
    rfl
  · unfold parseMapPayload
    rw [scanMap_eq_ok.mpr hmap]
    change (parseSelfSerialized blob >>= fun session => pure (some session)) = _
    cases parseSelfSerialized blob <;> rfl
  · obtain ⟨detail, hdetail⟩ := scanMap_refuses hnot
    refine ⟨detail, ?_⟩
    unfold parseMapPayload
    rw [hdetail]
    rfl

end TgPlatform
