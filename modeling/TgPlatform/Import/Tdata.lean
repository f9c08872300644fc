import Mathlib.Data.Int.Bitwise
import Mathlib.Order.Interval.Finset.Basic
import Mathlib.Data.Int.Interval
import TgPlatform.Lib.Endian
import TgPlatform.Lib.Reader

/-! # The authorization of a desktop client

A desktop client keeps the ids of its user and its main data centre, and the
keys of the data centres, in one of two layouts: with signed ids of 32 bits, or
marked by two words of ones, with a user id of 64 bits. The mark is compared with
a number that two signed words never give.
-/

namespace TgPlatform

/-- How reading a desktop client's data fails: with a `TDataError`, or never to end. -/
inductive TdataFailure
  | tdata (detail : String)
  | endless
  deriving DecidableEq, Repr

/-! ## The stream -/

abbrev TdataReader (α : Type) : Type := Reader UInt8 TdataFailure α

namespace TdataStream

/-- `_take`, and `raw`. -/
def raw (n : ℕ) : TdataReader (List UInt8) :=
  Reader.take (fun n pos => .tdata s!"stream short: need {n} at {pos}") n

def u32 : TdataReader ℕ := fun b => do return ofBigEndian (← raw 4 b)

def i32 : TdataReader ℤ := fun b => do return signed 4 (ofBigEndian (← raw 4 b))

def u64 : TdataReader ℕ := fun b => do return ofBigEndian (← raw 8 b)

def qbytearray : TdataReader (List UInt8) := fun b => do
  let n ← u32 b
  if n = 0xFFFFFFFF then return [] else raw n b

end TdataStream

/-- `WIDE_IDS_TAG`. -/
def wideIdsTag : ℤ := 2 ^ 64 - 1

def localKeySize : ℕ := 256

/-- `DC_SHIFT`. -/
def dcShift : ℤ := 10000

/-- What `_parse_self_serialized` returns; the keys in the order of the dict. -/
structure SelfSerialized where
  userId : ℤ
  mainDc : ℤ
  keys : List (ℤ × List UInt8)
  deriving DecidableEq, Repr

/-- `keys.setdefault`. -/
def setDefault (keys : List (ℤ × List UInt8)) (entry : ℤ × List UInt8) : List (ℤ × List UInt8) :=
  if keys.any fun e => e.1 = entry.1 then keys else keys ++ [entry]

open TdataStream

def readKeys : ℕ → List (ℤ × List UInt8) → TdataReader (List (ℤ × List UInt8))
  | 0, keys => fun _ => return keys
  | n + 1, keys => fun b => do
    let dcId ← i32 b
    let key ← raw localKeySize b
    readKeys n (setDefault keys (dcId % dcShift, key)) b

/-- `(user_id << 32) | (main_dc & 0xFFFFFFFF)`. -/
def idsTag (userId mainDc : ℤ) : ℤ := (userId <<< 32).lor (mainDc.land 0xFFFFFFFF)

def readIds : TdataReader (ℤ × ℤ) := fun b => do
  let userId ← i32 b
  let mainDc ← i32 b
  if idsTag userId mainDc = wideIdsTag then do
    let userId ← u64 b
    let mainDc ← i32 b
    return ((userId : ℤ), mainDc)
  else return (userId, mainDc)

/-- One of the two key lists, the current keys or those to be destroyed. -/
def readKeyList (keys : List (ℤ × List UInt8)) : TdataReader (List (ℤ × List UInt8)) := fun b => do
  let keyCount ← i32 b
  readKeys keyCount.toNat keys b

def readSelfSerialized : TdataReader SelfSerialized := fun b => do
  let (userId, mainDc) ← readIds b
  let keys ← readKeyList [] b
  let keys ← readKeyList keys b
  return { userId, mainDc, keys }

/-- `_parse_self_serialized`. -/
def parseSelfSerialized (blob : List UInt8) : Except TdataFailure SelfSerialized :=
  (readSelfSerialized blob).answer 0

/-! ## What the stream accepts -/

section Languages

/-- The dict after both key lists: an id keeps the key that it has got first. -/
def mergeKeys (keys entries : List (ℤ × List UInt8)) : List (ℤ × List UInt8) :=
  entries.foldl (fun keys e => setDefault keys (e.1 % dcShift, e.2)) keys

def packI32 (z : ℤ) : List UInt8 := bigEndian 4 (unsigned 4 z)

@[simp] theorem length_packI32 (z : ℤ) : (packI32 z).length = 4 := length_bigEndian 4 _

theorem signed_packI32 {z : ℤ} (h : FitsSigned 4 z) : signed 4 (ofBigEndian (packI32 z)) = z := by
  rw [packI32, ofBigEndian_bigEndian, Nat.mod_eq_of_lt (unsigned_lt 4 z), signed_unsigned h]

theorem fitsSigned_of_nonneg {z : ℤ} (h : 0 ≤ z) (hlt : z < 2 ^ 31) : FitsSigned 4 z := by
  constructor <;> omega

def packKey (entry : ℤ × List UInt8) : List UInt8 := packI32 entry.1 ++ entry.2

def packKeys (entries : List (ℤ × List UInt8)) : List UInt8 :=
  packI32 entries.length ++ entries.flatMap packKey

def KeyFits (entry : ℤ × List UInt8) : Prop := FitsSigned 4 entry.1 ∧ entry.2.length = localKeySize

instance (entry : ℤ × List UInt8) : Decidable (KeyFits entry) := inferInstanceAs (Decidable (_ ∧ _))

theorem recognizes_raw (n : ℕ) : Reader.Recognizes (raw n) fun w a => w.length = n ∧ a = w :=
  .take _ n

theorem recognizes_word (n : ℕ) : Reader.Recognizes (fun b => do return ofBigEndian (← raw n b))
    fun w k => w = bigEndian n k ∧ k < 256 ^ n := by
  refine ((recognizes_raw n).bind fun w => .ret (ofBigEndian w)).congr fun w k => ?_
  constructor
  · rintro ⟨_, _, a, rfl, ⟨hlength, rfl⟩, rfl, rfl⟩
    have hlt := ofBigEndian_lt a
    rw [hlength] at hlt
    refine ⟨?_, hlt⟩
    rw [List.append_nil, ← hlength, bigEndian_ofBigEndian]
  · rintro ⟨rfl, hk⟩
    refine ⟨bigEndian n k, [], _, (List.append_nil _).symm, ⟨length_bigEndian n k, rfl⟩, rfl, ?_⟩
    rw [ofBigEndian_bigEndian, Nat.mod_eq_of_lt hk]

theorem recognizes_u32 : Reader.Recognizes u32 fun w n => w = bigEndian 4 n ∧ n < 2 ^ 32 :=
  recognizes_word 4

theorem recognizes_u64 : Reader.Recognizes u64 fun w n => w = bigEndian 8 n ∧ n < 2 ^ 64 :=
  recognizes_word 8

theorem recognizes_i32 : Reader.Recognizes i32 fun w z => w = packI32 z ∧ FitsSigned 4 z := by
  refine ((recognizes_raw 4).bind fun w => .ret (signed 4 (ofBigEndian w))).congr fun w z => ?_
  constructor
  · rintro ⟨_, _, a, rfl, ⟨hlength, rfl⟩, rfl, hz⟩
    have hlt := ofBigEndian_lt a
    rw [hlength] at hlt
    rw [hz]
    refine ⟨?_, fitsSigned_signed _ _⟩
    rw [List.append_nil, packI32, unsigned_signed hlt, ← hlength, bigEndian_ofBigEndian]
  · rintro ⟨rfl, hz⟩
    exact ⟨packI32 z, [], _, (List.append_nil _).symm, ⟨length_packI32 z, rfl⟩, rfl,
      (signed_packI32 hz).symm⟩

theorem recognizes_readKeys : ∀ (n : ℕ) (keys : List (ℤ × List UInt8)),
    Reader.Recognizes (readKeys n keys) fun w r => ∃ entries : List (ℤ × List UInt8),
      entries.length = n ∧ (∀ e ∈ entries, KeyFits e) ∧ w = entries.flatMap packKey ∧
        r = mergeKeys keys entries
  | 0, keys => by
    refine (Reader.Recognizes.ret keys).congr fun w r => ?_
    constructor
    · rintro ⟨rfl, rfl⟩
      exact ⟨[], rfl, by simp, rfl, rfl⟩
    · rintro ⟨entries, hlength, -, rfl, rfl⟩
      obtain rfl := List.length_eq_zero_iff.mp hlength
      exact ⟨rfl, rfl⟩
  | n + 1, keys => by
    refine (recognizes_i32.bind fun dcId => (recognizes_raw localKeySize).bind fun key =>
      recognizes_readKeys n (setDefault keys (dcId % dcShift, key))).congr fun w r => ?_
    constructor
    · rintro ⟨_, _, dcId, rfl, ⟨rfl, hdc⟩, _, _, key, rfl, ⟨hkey, rfl⟩, entries, rfl, hfits, rfl, rfl⟩
      refine ⟨(dcId, key) :: entries, rfl, List.forall_mem_cons.mpr ⟨⟨hdc, hkey⟩, hfits⟩, ?_, rfl⟩
      rw [List.flatMap_cons, packKey, List.append_assoc]
    · rintro ⟨entries, hlength, hfits, rfl, rfl⟩
      obtain ⟨⟨dcId, key⟩, entries, rfl⟩ := List.exists_cons_of_length_eq_add_one hlength
      obtain ⟨hfirst, hfits⟩ := List.forall_mem_cons.mp hfits
      refine ⟨packI32 dcId, _, dcId, ?_, ⟨rfl, hfirst.1⟩, key, _, key, rfl, ⟨hfirst.2, rfl⟩, entries,
        Nat.succ.inj hlength, hfits, rfl, rfl⟩
      rw [List.flatMap_cons, packKey, List.append_assoc]

theorem recognizes_readKeyList (keys : List (ℤ × List UInt8)) :
    Reader.Recognizes (readKeyList keys) fun w r => ∃ (keyCount : ℤ) (entries : List (ℤ × List UInt8)),
      FitsSigned 4 keyCount ∧ entries.length = keyCount.toNat ∧ (∀ e ∈ entries, KeyFits e) ∧
        w = packI32 keyCount ++ entries.flatMap packKey ∧ r = mergeKeys keys entries := by
  refine (recognizes_i32.bind fun keyCount =>
    recognizes_readKeys keyCount.toNat keys).congr fun w r => ?_
  constructor
  · rintro ⟨_, _, keyCount, rfl, ⟨rfl, hcount⟩, entries, hlength, hfits, rfl, rfl⟩
    exact ⟨keyCount, entries, hcount, hlength, hfits, rfl, rfl⟩
  · rintro ⟨keyCount, entries, hcount, hlength, hfits, rfl, rfl⟩
    exact ⟨_, _, keyCount, rfl, ⟨rfl, hcount⟩, entries, hlength, hfits, rfl, rfl⟩

theorem exists_land_eq (d : ℤ) : ∃ k : ℕ, d.land 0xFFFFFFFF = k ∧ k < 2 ^ 32 := by
  cases d with
  | ofNat d => exact ⟨d &&& 0xFFFFFFFF, rfl, Nat.and_lt_two_pow d (by decide)⟩
  | negSucc d =>
    refine ⟨Nat.ldiff 0xFFFFFFFF d, rfl, Nat.lt_pow_two_of_testBit _ fun i hi => ?_⟩
    have hbound : 0xFFFFFFFF < 2 ^ i :=
      (by decide : 0xFFFFFFFF < 2 ^ 32).trans_le (Nat.pow_le_pow_right (by decide) hi)
    have hmask : Nat.testBit 0xFFFFFFFF i = false := Nat.testBit_lt_two_pow hbound
    rw [Nat.testBit_ldiff, hmask]
    rfl

/-- The tag of two signed words is a signed number itself. -/
theorem idsTag_ne {userId mainDc : ℤ} (h : FitsSigned 4 userId) : idsTag userId mainDc ≠ wideIdsTag := by
  obtain ⟨k, hk, hlt⟩ := exists_land_eq mainDc
  unfold idsTag wideIdsTag
  rw [hk]
  cases userId with
  | ofNat m =>
    have hm : m < 2 ^ 31 := by
      have hfits : (m : ℤ) * 2 < 256 ^ 4 := h.2
      omega
    have hor : m <<< 32 ||| k < 2 ^ 63 := by
      refine Nat.or_lt_two_pow ?_ (by omega)
      rw [Nat.shiftLeft_eq]
      omega
    change ((m <<< 32 ||| k : ℕ) : ℤ) ≠ _
    omega
  | negSucc m =>
    change Int.negSucc _ ≠ _
    exact nofun

theorem recognizes_readIds : Reader.Recognizes readIds fun w ids =>
    w = packI32 ids.1 ++ packI32 ids.2 ∧ FitsSigned 4 ids.1 ∧ FitsSigned 4 ids.2 := by
  have hrest : ∀ userId mainDc : ℤ, Reader.Recognizes (fun b =>
      if idsTag userId mainDc = wideIdsTag then do
        let userId ← u64 b
        let mainDc ← i32 b
        return ((userId : ℤ), mainDc)
      else return (userId, mainDc)) fun w ids =>
        if idsTag userId mainDc = wideIdsTag then
          ∃ u v n, w = u ++ v ∧ (u = bigEndian 8 n ∧ n < 2 ^ 64) ∧
            ∃ u' v' d, v = u' ++ v' ∧ (u' = packI32 d ∧ FitsSigned 4 d) ∧ v' = [] ∧ ids = ((n : ℤ), d)
        else w = [] ∧ ids = (userId, mainDc) := by
    intro userId mainDc
    split
    · exact recognizes_u64.bind fun n => recognizes_i32.bind fun d => .ret ((n : ℤ), d)
    · exact .ret (userId, mainDc)
  refine (recognizes_i32.bind fun userId => recognizes_i32.bind fun mainDc =>
    hrest userId mainDc).congr fun w ids => ?_
  constructor
  · rintro ⟨_, _, userId, rfl, ⟨rfl, huser⟩, _, _, mainDc, rfl, ⟨rfl, hdc⟩, hids⟩
    rw [if_neg (idsTag_ne huser)] at hids
    obtain ⟨rfl, rfl⟩ := hids
    exact ⟨by rw [List.append_nil], huser, hdc⟩
  · rintro ⟨rfl, huser, hdc⟩
    refine ⟨_, _, ids.1, rfl, ⟨rfl, huser⟩, packI32 ids.2, [], ids.2, ?_, ⟨rfl, hdc⟩, ?_⟩
    · rw [List.append_nil]
    · rw [if_neg (idsTag_ne huser)]
      exact ⟨rfl, rfl⟩

theorem recognizes_readSelfSerialized : Reader.Recognizes readSelfSerialized fun w r =>
    ∃ (m n : ℤ) (entries destroyed : List (ℤ × List UInt8)),
      (FitsSigned 4 r.userId ∧ FitsSigned 4 r.mainDc) ∧
      (FitsSigned 4 m ∧ entries.length = m.toNat ∧ ∀ e ∈ entries, KeyFits e) ∧
      (FitsSigned 4 n ∧ destroyed.length = n.toNat ∧ ∀ e ∈ destroyed, KeyFits e) ∧
      w = (packI32 r.userId ++ packI32 r.mainDc) ++ ((packI32 m ++ entries.flatMap packKey) ++
        (packI32 n ++ destroyed.flatMap packKey)) ∧
      r.keys = mergeKeys [] (entries ++ destroyed) := by
  refine (recognizes_readIds.bind fun ids => (recognizes_readKeyList []).bind fun keys =>
    (recognizes_readKeyList keys).bind fun keys =>
      .ret (SelfSerialized.mk ids.1 ids.2 keys)).congr fun w r => ?_
  have hmerge : ∀ entries destroyed, mergeKeys (mergeKeys [] entries) destroyed =
      mergeKeys [] (entries ++ destroyed) := fun _ _ => (List.foldl_append ..).symm
  constructor
  · rintro ⟨_, _, ids, rfl, ⟨rfl, hids⟩, _, _, _, rfl, ⟨m, entries, hm, hlength, hfits, rfl, rfl⟩,
      _, _, _, rfl, ⟨n, destroyed, hn, hlength', hfits', rfl, rfl⟩, rfl, rfl⟩
    exact ⟨m, n, entries, destroyed, hids, ⟨hm, hlength, hfits⟩, ⟨hn, hlength', hfits'⟩,
      by rw [List.append_nil], hmerge entries destroyed⟩
  · rintro ⟨m, n, entries, destroyed, hids, ⟨hm, hlength, hfits⟩, ⟨hn, hlength', hfits'⟩, rfl, hkeys⟩
    refine ⟨_, _, (r.userId, r.mainDc), rfl, ⟨rfl, hids⟩, packI32 m ++ entries.flatMap packKey,
      packI32 n ++ destroyed.flatMap packKey, mergeKeys [] entries, rfl,
      ⟨m, entries, hm, hlength, hfits, rfl, rfl⟩,
      packI32 n ++ destroyed.flatMap packKey, [], mergeKeys (mergeKeys [] entries) destroyed,
      (List.append_nil _).symm, ⟨n, destroyed, hn, hlength', hfits', rfl, rfl⟩, rfl, ?_⟩
    rw [hmerge, ← hkeys]

end Languages

/-! ## The two layouts -/

inductive IdLayout | legacy | wide
  deriving DecidableEq, Repr

def IdLayout.packIds : IdLayout → ℤ → ℤ → List UInt8
  | .legacy, userId, mainDc => packI32 userId ++ packI32 mainDc
  | .wide, userId, mainDc =>
    bigEndian 4 0xFFFFFFFF ++ bigEndian 4 0xFFFFFFFF ++ (bigEndian 8 userId.toNat ++ packI32 mainDc)

def IdLayout.Fits : IdLayout → ℤ → ℤ → Prop
  | .legacy, userId, mainDc => (0 ≤ userId ∧ userId < 2 ^ 31) ∧ 0 ≤ mainDc ∧ mainDc < 2 ^ 31
  | .wide, userId, mainDc => (0 ≤ userId ∧ userId < 2 ^ 64) ∧ FitsSigned 4 mainDc

/-- An mtpAuthorization: the ids, the current keys and those to be destroyed. -/
def IdLayout.encode (layout : IdLayout) (userId mainDc : ℤ) (keys destroyed : List (ℤ × List UInt8)) :
    List UInt8 :=
  layout.packIds userId mainDc ++ (packKeys keys ++ packKeys destroyed)

theorem mergeKeys_of_distinct {keys entries : List (ℤ × List UInt8)}
    (hdistinct : ((keys ++ entries).map Prod.fst).Nodup)
    (hbare : ∀ e ∈ entries, 0 ≤ e.1 ∧ e.1 < dcShift) :
    mergeKeys keys entries = keys ++ entries := by
  induction entries generalizing keys with
  | nil => exact (List.append_nil keys).symm
  | cons e entries ih =>
    obtain ⟨hfirst, hbare⟩ := List.forall_mem_cons.mp hbare
    have hnew : (keys.any fun x => x.1 = e.1) = false := by
      rw [List.any_eq_false]
      intro x hx heq
      rw [List.map_append, List.nodup_append] at hdistinct
      exact hdistinct.2.2 x.1 (List.mem_map_of_mem hx) e.1 (by simp) (of_decide_eq_true heq)
    have hset : setDefault keys (e.1 % dcShift, e.2) = keys ++ [e] := by
      rw [Int.emod_eq_of_lt hfirst.1 hfirst.2, setDefault, hnew]
      rfl
    unfold mergeKeys at ih ⊢
    rw [List.foldl_cons, hset, ih, List.append_assoc]
    · rfl
    · rwa [List.append_assoc]
    · exact hbare

theorem length_le_of_distinct {keys : List (ℤ × List UInt8)} (hdistinct : (keys.map Prod.fst).Nodup)
    (hbare : ∀ e ∈ keys, 0 ≤ e.1 ∧ e.1 < dcShift) : keys.length ≤ 10000 := by
  have hsub : (keys.map Prod.fst).toFinset ⊆ Finset.Ico 0 dcShift := by
    intro id hid
    obtain ⟨e, he, rfl⟩ := List.mem_map.mp (List.mem_toFinset.mp hid)
    exact Finset.mem_Ico.mpr (hbare e he)
  have hcard := Finset.card_le_card hsub
  rwa [List.toFinset_card_of_nodup hdistinct, List.length_map, Int.card_Ico] at hcard

/-- In the layout of 32 bits, the ids are read back, and the keys of both lists are merged. -/
theorem parse_legacy {userId mainDc : ℤ} {keys destroyed : List (ℤ × List UInt8)}
    (huser : FitsSigned 4 userId) (hdc : FitsSigned 4 mainDc) (hkeys : ∀ e ∈ keys, KeyFits e)
    (hdestroyed : ∀ e ∈ destroyed, KeyFits e)
    (hlength : keys.length < 2 ^ 31) (hlength' : destroyed.length < 2 ^ 31) :
    parseSelfSerialized (IdLayout.legacy.encode userId mainDc keys destroyed) =
      .ok ⟨userId, mainDc, mergeKeys [] (keys ++ destroyed)⟩ := by
  rw [parseSelfSerialized, recognizes_readSelfSerialized.answer_eq_ok]
  exact ⟨_, [], (List.append_nil _).symm, keys.length, destroyed.length, keys, destroyed, ⟨huser, hdc⟩,
    ⟨fitsSigned_of_nonneg (Int.natCast_nonneg _) (by omega), rfl, hkeys⟩,
    ⟨fitsSigned_of_nonneg (Int.natCast_nonneg _) (by omega), rfl, hdestroyed⟩, rfl, rfl⟩

/-- An encoding decodes to what it was made of if and only if it is in the layout of 32 bits. -/
theorem decodes_iff_legacy (layout : IdLayout) (userId mainDc : ℤ) (keys : List (ℤ × List UInt8))
    (hids : layout.Fits userId mainDc) (hdistinct : (keys.map Prod.fst).Nodup)
    (hkeys : ∀ e ∈ keys, (0 ≤ e.1 ∧ e.1 < dcShift) ∧ e.2.length = localKeySize) :
    parseSelfSerialized (layout.encode userId mainDc keys []) = .ok ⟨userId, mainDc, keys⟩ ↔
      layout = .legacy := by
  cases layout with
  | legacy =>
    simp only [iff_true]
    obtain ⟨⟨huser₀, huser⟩, hdc₀, hdc⟩ := hids
    have hlength := length_le_of_distinct hdistinct fun e he => (hkeys e he).1
    have hfits : ∀ e ∈ keys, KeyFits e := by
      intro e he
      obtain ⟨⟨hid₀, hid⟩, hkey⟩ := hkeys e he
      exact ⟨fitsSigned_of_nonneg hid₀ (hid.trans (by decide)), hkey⟩
    have hmerged : mergeKeys [] (keys ++ []) = keys := by
      rw [List.append_nil]
      exact mergeKeys_of_distinct (by simpa using hdistinct) fun e he => (hkeys e he).1
    rw [parse_legacy (fitsSigned_of_nonneg huser₀ huser) (fitsSigned_of_nonneg hdc₀ hdc) hfits (by simp)
      (by omega) (by decide), hmerged]
  | wide =>
    rw [parseSelfSerialized, recognizes_readSelfSerialized.answer_eq_ok]
    simp only [reduceCtorEq, iff_false]
    rintro ⟨w, after, hblob, m, n, entries, destroyed, ⟨huser, -⟩, -, -, rfl, -⟩
    -- the first word of the blob is all ones, which no user id of the layout is
    have hfirst := congrArg (List.take 4) hblob
    simp only [IdLayout.encode, IdLayout.packIds, List.append_assoc] at hfirst
    rw [List.take_left' (length_bigEndian 4 _), List.take_left' (length_packI32 _)] at hfirst
    have hword : signed 4 (ofBigEndian (bigEndian 4 0xFFFFFFFF)) = userId := by
      rw [hfirst, signed_packI32 huser]
    have hones : signed 4 (ofBigEndian (bigEndian 4 0xFFFFFFFF)) = -1 := by decide +kernel
    have hnonneg : 0 ≤ userId := hids.1.1
    omega

def threeKeys : List (ℤ × List UInt8) :=
  [(2, List.replicate localKeySize 107), (4, List.replicate localKeySize 97),
    (5, List.replicate localKeySize 102)]

theorem decodes_threeKeys : parseSelfSerialized (IdLayout.legacy.encode 777123456 4 threeKeys []) =
    .ok ⟨777123456, 4, threeKeys⟩ :=
  (decodes_iff_legacy .legacy 777123456 4 threeKeys ⟨by decide, by decide⟩ (by decide +kernel)
    (by decide +kernel)).mpr rfl

/-- The first user id that needs the wide layout is read as -1. -/
theorem wide_id_is_lost : ¬ ∀ (layout : IdLayout) (userId mainDc : ℤ) (keys : List (ℤ × List UInt8)),
    layout.Fits userId mainDc → (keys.map Prod.fst).Nodup →
      (∀ e ∈ keys, (0 ≤ e.1 ∧ e.1 < dcShift) ∧ e.2.length = localKeySize) →
        parseSelfSerialized (layout.encode userId mainDc keys []) = .ok ⟨userId, mainDc, keys⟩ := by
  intro h
  have hread : parseSelfSerialized (IdLayout.wide.encode (2 ^ 31) 2 [] []) = .ok ⟨-1, -1, []⟩ := by
    decide +kernel
  have hwhole := h .wide (2 ^ 31) 2 [] ⟨by decide, by decide⟩ List.nodup_nil (by simp)
  rw [hread] at hwhole
  exact absurd hwhole (by decide)

end TgPlatform
