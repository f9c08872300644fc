import TgPlatform.Lib.Digest
import TgPlatform.Lib.Except

/-! # The framing of a desktop client's files

A file has a magic, a version and a digest about its data, and what the client
keeps in it is encrypted, with its length before it and a padding behind. Both
are read back to what was framed.
-/

namespace TgPlatform

open Digest

/-- How a framing is refused: with a `TDataError`, or by `struct`. -/
inductive FrameFailure
  | tdata (detail : String)
  | struct
  deriving DecidableEq, Repr

/-- `struct.pack("<I", n)`. -/
def packU32 (n : ℕ) : Except FrameFailure (List UInt8) :=
  if n < 2 ^ 32 then .ok (littleEndian 4 n) else .error .struct

/-- `struct.unpack("<I", w)`. -/
def unpackU32 (w : List UInt8) : Except FrameFailure ℕ :=
  if w.length = 4 then .ok (ofLittleEndian w) else .error .struct

theorem packU32_eq_ok {n : ℕ} {w : List UInt8} :
    packU32 n = .ok w ↔ n < 2 ^ 32 ∧ w = littleEndian 4 n := by
  unfold packU32
  split
  · rename_i h
    simp only [h, Except.ok.injEq, true_and, eq_comm]
  · rename_i h
    simp only [h, reduceCtorEq, false_and]

theorem unpackU32_eq_ok {w : List UInt8} {n : ℕ} :
    unpackU32 w = .ok n ↔ w.length = 4 ∧ ofLittleEndian w = n := by
  unfold unpackU32
  split
  · simp [*]
  · simp [*]

theorem ofLittleEndian_four {n : ℕ} (h : n < 2 ^ 32) : ofLittleEndian (littleEndian 4 n) = n := by
  rw [ofLittleEndian_littleEndian]
  exact Nat.mod_eq_of_lt h

/-! ## Files -/

/-- `TDF_MAGIC`. -/
def tdfMagic : List UInt8 := [0x54, 0x44, 0x46, 0x24]

/-- The MD5 over data, length, version and magic. -/
def tdfDigest (version : ℕ) (data : List UInt8) : Except FrameFailure (List UInt8) := do
  let length ← packU32 data.length
  let version ← packU32 version
  return md5 (data ++ length ++ version ++ tdfMagic)

/-- `_tdf_read`, of the bytes of the file. -/
def tdfRead (raw : List UInt8) : Except FrameFailure (ℕ × List UInt8) :=
  if raw.length < 24 ∨ raw.take 4 ≠ tdfMagic then .error (.tdata "bad TDF magic")
  else do
    let version ← unpackU32 (raw.extract 4 8)
    let data := raw.extract 8 (raw.length - 16)
    let md5Stored := raw.drop (raw.length - 16)
    let md5Calc ← tdfDigest version data
    if md5Calc ≠ md5Stored then .error (.tdata "bad TDF checksum") else return (version, data)

/-- `_tdf`: magic, version, data and digest. -/
def tdf (version : ℕ) (data : List UInt8) : Except FrameFailure (List UInt8) := do
  let digest ← tdfDigest version data
  return tdfMagic ++ (← packU32 version) ++ data ++ digest

/-! ## Encryption -/

structure AesIge where
  encryptIge : List UInt8 → List UInt8 → List UInt8 → List UInt8
  decryptIge : List UInt8 → List UInt8 → List UInt8 → List UInt8

/-- On whole blocks, under a key and a vector of 32 bytes, decryption inverts encryption. -/
structure AesIge.Inverts (aes : AesIge) : Prop where
  decrypt_encrypt : ∀ {plain key iv : List UInt8}, plain.length % 16 = 0 → key.length = 32 →
    iv.length = 32 →
    aes.decryptIge (aes.encryptIge plain key iv) key iv = plain
  length_encrypt : ∀ {plain key iv : List UInt8}, plain.length % 16 = 0 → key.length = 32 →
    iv.length = 32 →
    (aes.encryptIge plain key iv).length = plain.length

/-- `_aes_key_iv`. -/
def aesKeyIv (key256 msg16 : List UInt8) : List UInt8 × List UInt8 :=
  let x := 8
  let a := sha1 (msg16 ++ key256.extract x (x + 32))
  let b := sha1 (key256.extract (x + 32) (x + 48) ++ msg16 ++ key256.extract (x + 48) (x + 64))
  let c := sha1 (key256.extract (x + 64) (x + 96) ++ msg16)
  let d := sha1 (msg16 ++ key256.extract (x + 96) (x + 128))
  (a.take 8 ++ b.extract 8 20 ++ c.extract 4 16, a.extract 8 20 ++ b.take 8 ++ c.extract 16 20 ++
    d.take 8)

/-- `_decrypt_local`. -/
def decryptLocal (aes : AesIge) (encrypted key256 : List UInt8) : Except FrameFailure (List UInt8) :=
  if encrypted.length ≤ 16 ∨ encrypted.length &&& 0x0F ≠ 0 then
    .error (.tdata s!"bad encrypted size {encrypted.length}")
  else
    let key128 := encrypted.take 16
    let data := encrypted.drop 16
    let keyIv := aesKeyIv key256 key128
    let plain := aes.decryptIge data keyIv.1 keyIv.2
    if (sha1 plain).take 16 ≠ key128 then .error (.tdata "bad decrypt key (tdata 可能有本地密码或已损坏)")
    else do
      let dataLen ← unpackU32 (plain.take 4)
      if dataLen > plain.length ∨ dataLen < 4 ∨ (dataLen : ℤ) ≤ plain.length - 16 then
        .error (.tdata "bad decrypted size")
      else return plain.extract 4 dataLen

/-- A padding behind `n` bytes: fewer than 16 bytes, to a multiple of 16. -/
structure BlockPadding (n : ℕ) where
  bytes : List UInt8
  short : bytes.length < 16
  whole : (n + bytes.length) % 16 = 0

/-- `bytes((-n) % 16)`. -/
def BlockPadding.zeros (n : ℕ) : BlockPadding n where
  bytes := List.replicate ((16 - n % 16) % 16) 0
  short := by rw [List.length_replicate]; omega
  whole := by rw [List.length_replicate]; omega

/-- `_enc_local`, with any padding: the length and the payload, padded, encrypted under a key that
its SHA-1 goes into. -/
def encLocal (aes : AesIge) (payload : List UInt8) (padding : BlockPadding (payload.length + 4))
    (key256 : List UInt8) : Except FrameFailure (List UInt8) := do
  let data := (← packU32 (payload.length + 4)) ++ payload ++ padding.bytes
  let chk := (sha1 data).take 16
  let keyIv := aesKeyIv key256 chk
  return chk ++ aes.encryptIge data keyIv.1 keyIv.2

/-! ## Reading back -/

section Reading

variable {version : ℕ} {data raw : List UInt8}

theorem tdfDigest_eq_ok {digest : List UInt8} : tdfDigest version data = .ok digest ↔
    data.length < 2 ^ 32 ∧ version < 2 ^ 32 ∧
      digest = md5 (data ++ littleEndian 4 data.length ++ littleEndian 4 version ++ tdfMagic) := by
  unfold tdfDigest
  simp only [Except.bind_eq_ok, packU32_eq_ok]
  constructor
  · rintro ⟨_, ⟨hlength, rfl⟩, _, ⟨hversion, rfl⟩, hdigest⟩
    exact ⟨hlength, hversion, (Except.ok.inj hdigest).symm⟩
  · rintro ⟨hlength, hversion, rfl⟩
    exact ⟨_, ⟨hlength, rfl⟩, _, ⟨hversion, rfl⟩, rfl⟩

theorem tdf_eq_ok : tdf version data = .ok raw ↔ ∃ digest, tdfDigest version data = .ok digest ∧
    raw = tdfMagic ++ (littleEndian 4 version ++ (data ++ digest)) := by
  unfold tdf
  simp only [Except.bind_eq_ok, packU32_eq_ok]
  constructor
  · rintro ⟨digest, hdigest, _, ⟨-, rfl⟩, hraw⟩
    refine ⟨digest, hdigest, ?_⟩
    rw [← Except.ok.inj hraw]
    simp only [List.append_assoc]
  · rintro ⟨digest, hdigest, rfl⟩
    refine ⟨digest, hdigest, _, ⟨(tdfDigest_eq_ok.mp hdigest).2.1, rfl⟩, ?_⟩
    simp only [List.append_assoc]
    rfl

theorem tdfRead_eq_ok : tdfRead raw = .ok (version, data) ↔ (24 ≤ raw.length ∧ raw.take 4 = tdfMagic) ∧
    version = ofLittleEndian (raw.extract 4 8) ∧ data = raw.extract 8 (raw.length - 16) ∧
      tdfDigest version data = .ok (raw.drop (raw.length - 16)) := by
  unfold tdfRead
  split
  · rename_i hbad
    constructor
    · nofun
    · rintro ⟨⟨hlength, hmagic⟩, -⟩
      rcases hbad with hshort | hother
      · omega
      · exact absurd hmagic hother
  · rename_i hgood
    obtain ⟨hlength, hmagic⟩ := not_or.mp hgood
    have hword : (raw.extract 4 8).length = 4 := by
      rw [List.extract_eq_take_drop, List.length_take, List.length_drop]
      omega
    simp only [Except.bind_eq_ok, unpackU32_eq_ok]
    constructor
    · rintro ⟨_, ⟨-, rfl⟩, digest, hdigest, hread⟩
      split at hread
      · cases hread
      · rename_i hsame
        obtain ⟨rfl, rfl⟩ := Prod.mk.inj (Except.ok.inj hread)
        rw [not_not.mp hsame] at hdigest
        exact ⟨⟨Nat.le_of_not_lt hlength, not_not.mp hmagic⟩, rfl, rfl, hdigest⟩
    · rintro ⟨-, rfl, rfl, hdigest⟩
      refine ⟨_, ⟨hword, rfl⟩, _, hdigest, ?_⟩
      rw [if_neg (not_not.mpr rfl)]
      rfl

end Reading

section Parts

variable {raw : List UInt8}

theorem slices_of_parts {magic word data digest : List UInt8} (hmagic : magic.length = 4)
    (hword : word.length = 4) (hdigest : digest.length = 16)
      (hraw : raw = magic ++ (word ++ (data ++ digest))) :
    24 ≤ raw.length ∧ raw.take 4 = magic ∧ raw.extract 4 8 = word ∧
      raw.extract 8 (raw.length - 16) = data ∧
      raw.drop (raw.length - 16) = digest := by
  have hlength : raw.length = 24 + data.length := by
    simp only [hraw, List.length_append, hmagic, hword, hdigest]
    omega
  have htail : raw.drop 8 = data ++ digest := by
    rw [hraw, ← List.append_assoc]
    exact List.drop_left' (by rw [List.length_append, hmagic, hword])
  have hrest : raw.drop 4 = word ++ (data ++ digest) := by
    rw [hraw]
    exact List.drop_left' hmagic
  refine ⟨by omega, ?_, ?_, ?_, ?_⟩
  · rw [hraw]
    exact List.take_left' hmagic
  · rw [List.extract_eq_take_drop, hrest]
    exact List.take_left' hword
  · rw [List.extract_eq_take_drop, htail]
    exact List.take_left' (by omega)
  · have hskip : raw.length - 16 = 8 + data.length := by omega
    rw [hskip, ← List.drop_drop, htail]
    exact List.drop_left' rfl

theorem exists_parts (h : 24 ≤ raw.length) : ∃ magic word data digest : List UInt8,
    magic.length = 4 ∧ word.length = 4 ∧ digest.length = 16 ∧
      raw = magic ++ (word ++ (data ++ digest)) := by
  refine ⟨raw.take 4, (raw.drop 4).take 4, (raw.drop 8).take (raw.length - 24),
    raw.drop (raw.length - 16),
    ?_, ?_, ?_, ?_⟩
  · exact List.length_take_of_le (by omega)
  · exact List.length_take_of_le (by rw [List.length_drop]; omega)
  · rw [List.length_drop]
    omega
  · have hskip : raw.length - 16 = 8 + (raw.length - 24) := by omega
    rw [hskip, ← List.drop_drop, List.take_append_drop, ← List.drop_drop (i := 4) (j := 4),
      List.take_append_drop, List.take_append_drop]

/-- A file is read to a version and data if and only if it is their framing. -/
theorem tdfRead_eq_ok_iff {version : ℕ} {data : List UInt8} :
    tdfRead raw = .ok (version, data) ↔ tdf version data = .ok raw := by
  rw [tdf_eq_ok]
  constructor
  · intro h
    obtain ⟨⟨hlength, hmagic⟩, hversion, hdata, hdigest⟩ := tdfRead_eq_ok.mp h
    obtain ⟨magic, word, middle, digest, hlength₁, hlength₂, hlength₃, hraw⟩ := exists_parts hlength
    obtain ⟨-, htake, hword, hmiddle, hdrop⟩ := slices_of_parts hlength₁ hlength₂ hlength₃ hraw
    refine ⟨digest, hdrop ▸ hdigest, ?_⟩
    rw [hversion, hword, ← hlength₂, littleEndian_ofLittleEndian, hdata, hmiddle, ← hmagic, htake]
    exact hraw
  · rintro ⟨digest, hdigest, hraw⟩
    obtain ⟨-, hversion, rfl⟩ := tdfDigest_eq_ok.mp hdigest
    obtain ⟨hlength, htake, hword, hmiddle, hdrop⟩ :=
      slices_of_parts rfl (length_littleEndian 4 version) (length_md5 _) hraw
    refine tdfRead_eq_ok.mpr ⟨⟨hlength, htake⟩, ?_, hmiddle.symm, ?_⟩
    · rw [hword, ofLittleEndian_four hversion]
    · rw [hdrop]
      exact hdigest

theorem tdfRead_refuses
    (h : tdfDigest (ofLittleEndian (raw.extract 4 8)) (raw.extract 8 (raw.length - 16)) ≠
    .ok (raw.drop (raw.length - 16))) : ∃ e, tdfRead raw = .error e := by
  cases hread : tdfRead raw with
  | error e => exact ⟨e, rfl⟩
  | ok r =>
    obtain ⟨-, hversion, hdata, hdigest⟩ := tdfRead_eq_ok.mp hread
    rw [hversion, hdata] at hdigest
    exact absurd hdigest h

end Parts

section Decrypting

variable {aes : AesIge} {payload encrypted key256 : List UInt8}

theorem length_aesKeyIv (key256 msg16 : List UInt8) :
    (aesKeyIv key256 msg16).1.length = 32 ∧ (aesKeyIv key256 msg16).2.length = 32 := by
  simp [aesKeyIv, length_sha1]

theorem length_take_sha1 (message : List UInt8) : ((sha1 message).take 16).length = 16 :=
  List.length_take_of_le (by rw [length_sha1]; decide)

theorem encLocal_eq_ok {padding : BlockPadding (payload.length + 4)} :
    encLocal aes payload padding key256 = .ok encrypted ↔ payload.length + 4 < 2 ^ 32 ∧
      ∃ data keyIv, data = littleEndian 4 (payload.length + 4) ++ payload ++ padding.bytes ∧
        keyIv = aesKeyIv key256 ((sha1 data).take 16) ∧
        encrypted = (sha1 data).take 16 ++ aes.encryptIge data keyIv.1 keyIv.2 := by
  unfold encLocal
  simp only [Except.bind_eq_ok, packU32_eq_ok]
  constructor
  · rintro ⟨_, ⟨hlength, rfl⟩, hencrypted⟩
    exact ⟨hlength, _, _, rfl, rfl, (Except.ok.inj hencrypted).symm⟩
  · rintro ⟨hlength, _, _, rfl, rfl, rfl⟩
    exact ⟨_, ⟨hlength, rfl⟩, rfl⟩

theorem unpack_padded {padding : BlockPadding (payload.length + 4)}
    (hlength : payload.length + 4 < 2 ^ 32)
    {data : List UInt8} (hdata : data = littleEndian 4 (payload.length + 4) ++ payload ++
      padding.bytes) :
    unpackU32 (data.take 4) = .ok (payload.length + 4) ∧
      data.extract 4 (payload.length + 4) = payload := by
  have hword : (littleEndian 4 (payload.length + 4)).length = 4 := length_littleEndian 4 _
  rw [List.append_assoc] at hdata
  constructor
  · rw [hdata, List.take_left' hword]
    exact unpackU32_eq_ok.mpr ⟨hword, ofLittleEndian_four hlength⟩
  · rw [hdata, List.extract_eq_take_drop, List.drop_left' hword]
    exact List.take_left' (by omega)

theorem decryptLocal_encLocal (haes : aes.Inverts) {padding : BlockPadding (payload.length + 4)}
    (h : encLocal aes payload padding key256 = .ok encrypted) :
    decryptLocal aes encrypted key256 = .ok payload := by
  obtain ⟨hlength, data, keyIv, hdata, hkeyIv, hencrypted⟩ := encLocal_eq_ok.mp h
  have hsize : data.length = payload.length + 4 + padding.bytes.length := by
    simp only [hdata, List.length_append, length_littleEndian]
    omega
  have hshort := padding.short
  have hwhole : data.length % 16 = 0 := hsize ▸ padding.whole
  have hkey : keyIv.1.length = 32 := hkeyIv ▸ (length_aesKeyIv _ _).1
  have hiv : keyIv.2.length = 32 := hkeyIv ▸ (length_aesKeyIv _ _).2
  have hchk := length_take_sha1 data
  have hblocks : encrypted.length = 16 + data.length := by
    rw [hencrypted, List.length_append, hchk, haes.length_encrypt hwhole hkey hiv]
  obtain ⟨hunpack, hextract⟩ := unpack_padded hlength hdata
  have hmask : encrypted.length &&& 0x0F = encrypted.length % 16 := Nat.and_two_pow_sub_one_eq_mod _ 4
  have htake : encrypted.take 16 = (sha1 data).take 16 := hencrypted ▸ List.take_left' hchk
  have hdrop : encrypted.drop 16 = aes.encryptIge data keyIv.1 keyIv.2 :=
    hencrypted ▸ List.drop_left' hchk
  unfold decryptLocal
  rw [if_neg (by omega)]
  dsimp only
  rw [htake, hdrop, ← hkeyIv, haes.decrypt_encrypt hwhole hkey hiv, if_neg (not_not.mpr rfl)]
  refine Except.bind_eq_ok.mpr ⟨_, hunpack, ?_⟩
  -- the length before the padding lies in the last block
  rw [if_neg (by omega), hextract]
  rfl

end Decrypting

/-- Files are read to exactly what they frame, with any other digest they are refused, and what is
encrypted is decrypted to the payload, whatever the padding. -/
theorem framing_round_trip (aes : AesIge) (haes : aes.Inverts) :
    (∀ version data raw, tdfRead raw = .ok (version, data) ↔ tdf version data = .ok raw) ∧
    (∀ raw, tdfDigest (ofLittleEndian (raw.extract 4 8)) (raw.extract 8 (raw.length - 16)) ≠
      .ok (raw.drop (raw.length - 16)) → ∃ e, tdfRead raw = .error e) ∧
    ∀ payload padding key256 encrypted, encLocal aes payload padding key256 = .ok encrypted →
      decryptLocal aes encrypted key256 = .ok payload :=
  ⟨fun _ _ _ => tdfRead_eq_ok_iff, fun _ => tdfRead_refuses, fun _ _ _ _ => decryptLocal_encLocal haes⟩

section Abc

/-- The key of 256 bytes that counts up. -/
def countingKey : List UInt8 := (List.range 256).map UInt8.ofNat

/-- Three bytes, with their length and their padding. -/
def abcPlain : List UInt8 := [7, 0, 0, 0, 97, 98, 99] ++ List.replicate 9 0

/-- The AES-IGE encryption of `abcPlain` under the key and the vector of `countingKey`. -/
def abcCipher : List UInt8 :=
  [150, 196, 31, 143, 106, 12, 72, 15, 107, 237, 126, 64, 164, 121, 230, 18]

/-- The cipher on this block; any other it leaves alone. -/
def oneBlockIge : AesIge where
  encryptIge := swapped
  decryptIge := swapped
where
  swapped (data key iv : List UInt8) : List UInt8 :=
    if (key, iv) ≠ aesKeyIv countingKey ((sha1 abcPlain).take 16) then data
    else if data = abcPlain then abcCipher
    else if data = abcCipher then abcPlain
    else data

theorem swapped_eq (data key iv : List UInt8) : oneBlockIge.swapped data key iv = data ∨
    data = abcPlain ∧ oneBlockIge.swapped data key iv = abcCipher ∧
      oneBlockIge.swapped abcCipher key iv = abcPlain ∨
    data = abcCipher ∧ oneBlockIge.swapped data key iv = abcPlain ∧
      oneBlockIge.swapped abcPlain key iv = abcCipher := by
  unfold oneBlockIge.swapped
  split
  · exact .inl rfl
  · split
    · rename_i hplain
      exact .inr (.inl ⟨hplain, rfl, (if_neg (by decide)).trans (if_pos rfl)⟩)
    · split
      · rename_i hcipher
        exact .inr (.inr ⟨hcipher, rfl, if_pos rfl⟩)
      · exact .inl rfl

theorem oneBlockIge_inverts : oneBlockIge.Inverts where
  decrypt_encrypt := by
    intro plain key iv _ _ _
    change oneBlockIge.swapped (oneBlockIge.swapped plain key iv) key iv = plain
    rcases swapped_eq plain key iv with hsame | ⟨rfl, hcipher, hback⟩ | ⟨rfl, hplain, hback⟩
    · rw [hsame, hsame]
    · rw [hcipher, hback]
    · rw [hplain, hback]
  length_encrypt := by
    intro plain key iv _ _ _
    change (oneBlockIge.swapped plain key iv).length = plain.length
    rcases swapped_eq plain key iv with hsame | ⟨rfl, hcipher, -⟩ | ⟨rfl, hplain, -⟩
    · rw [hsame]
    · rw [hcipher]
      rfl
    · rw [hplain]
      rfl

/-- Three bytes, encrypted and in a file. -/
theorem framing_round_trip_abc :
    decryptLocal oneBlockIge ((sha1 abcPlain).take 16 ++ abcCipher) countingKey = .ok [97, 98, 99] ∧
    tdfRead (tdfMagic ++ littleEndian 4 3001014 ++ [97, 98, 99] ++
      [218, 162, 136, 136, 16, 199, 126, 205, 130, 89, 159, 33, 104, 220, 20, 41]) =
      .ok (3001014, [97, 98, 99]) :=
  ⟨(framing_round_trip oneBlockIge oneBlockIge_inverts).2.2 [97, 98, 99] (.zeros _) countingKey _
    (by decide +kernel),
    ((framing_round_trip oneBlockIge oneBlockIge_inverts).1 3001014 [97, 98, 99] _).mpr (by decide +kernel)⟩

end Abc

end TgPlatform
