import TgPlatform.Lib.Base64
import TgPlatform.Lib.Endian
import TgPlatform.Lib.Except
import TgPlatform.Lib.JsonText
import TgPlatform.Lib.Utf8

/-! # Session envelopes

The bytes of a session are encrypted with a key of their own, which is encrypted
in turn with a key that the provider holds. Both ciphertexts carry the secret
reference as associated data. What is stored of them is one frame: a header in
JSON with its length, and the second ciphertext.
-/

namespace TgPlatform

/-! ## AES-GCM -/

/-- `AESGCM`, with the keys that it takes. A result `none` stands for `InvalidTag`, or for the
`ValueError` about the size of a nonce. -/
structure AesGcm where
  accepts : Bytes → Bool
  encrypt : Bytes → Bytes → Bytes → Bytes → Bytes
  decrypt : Bytes → Bytes → Bytes → Bytes → Option Bytes
  accepts_of_length : ∀ key, key.length = 32 → accepts key = true
  decrypt_encrypt : ∀ key nonce data aad, decrypt key nonce (encrypt key nonce data aad) aad = some data
  length_encrypt : ∀ key nonce data aad, (encrypt key nonce data aad).length = data.length + 16

/-- What a ciphertext is bound to. -/
structure GcmContext where
  key : Bytes
  nonce : Bytes
  aad : Bytes
  deriving DecidableEq

/-- Keys, nonces and associated data that come together in any way. -/
def contexts (keys nonces aads : Set Bytes) : Set GcmContext :=
  { c | c.key ∈ keys ∧ c.nonce ∈ nonces ∧ c.aad ∈ aads }

/-- No ciphertext of one of the contexts is authentic in another one. -/
def AesGcm.Binds (aead : AesGcm) (used : Set GcmContext) : Prop :=
  ∀ c ∈ used, ∀ c' ∈ used, c ≠ c' → ∀ data,
    aead.decrypt c'.key c'.nonce (aead.encrypt c.key c.nonce data c.aad) c'.aad = none

inductive CryptoError
  | keyNotFound
  | keyError
  | typeError
  | valueError
  | overflowError
  | invalidTag
  | envelopeDecryptError
  deriving DecidableEq, Repr

/-- `AESGCM(key)`. -/
def aesGcmKey (aead : AesGcm) (key : Bytes) : Except CryptoError Bytes :=
  if aead.accepts key then .ok key else .error .valueError

/-! ## Key providers -/

/-- `KeyProvider`. A key that is `none` stands for `KeyNotFound`. -/
structure KeyProvider where
  currentVersion : ℤ
  getKey : ℤ → Option Bytes

/-- `LocalKeyProvider`: the entry of a version is the first one. -/
structure LocalKeyProvider where
  keys : List (ℤ × Bytes)
  current : ℤ

def LocalKeyProvider.toKeyProvider (p : LocalKeyProvider) : KeyProvider where
  currentVersion := p.current
  getKey version := p.keys.lookup version

/-- `bytes.fromhex`. -/
def fromHex : List Char → Option Bytes
  | [] => some []
  | c :: s =>
    if c.toNat ∈ [0x09, 0x0a, 0x0b, 0x0c, 0x0d, 0x20] then fromHex s
    else
      match s with
      | d :: s => do
        let high ← JsonText.hexValue c
        let low ← JsonText.hexValue d
        return UInt8.ofNat (16 * high + low) :: (← fromHex s)
      | [] => none

/-- `_decode_key`. -/
def decodeKey (value : String) : Except CryptoError Bytes :=
  let raw := (strip value).toList
  match [Base64.decode raw, fromHex raw].reduceOption.find? fun key => key.length = 32 with
  | some key => .ok key
  | none => .error .valueError

section FromEnv

variable (py : Python)

def envVersion (name : String) : Except CryptoError (Option ℤ) :=
  if name = "TGRT_KEK" then .ok (some 1)
  else if "TGRT_KEK_".toList <+: name.toList ∧ py.isDigit (String.ofList (name.toList.drop 9)) then
    match py.parseInt (String.ofList (name.toList.drop 9)) with
    | some version => .ok (some version)
    | none => .error .valueError
  else .ok none

def addEnvKey (keys : List (ℤ × Bytes)) (entry : String × String) :
    Except CryptoError (List (ℤ × Bytes)) := do
  match ← envVersion py entry.1 with
  | some version => return (version, ← decodeKey entry.2) :: keys
  | none => return keys

/-- `LocalKeyProvider.from_env`. -/
def fromEnv (env : List (String × String)) : Except CryptoError LocalKeyProvider := do
  match (← env.foldlM (addEnvKey py) []) with
  | [] => throw .keyNotFound
  | (version, key) :: keys =>
    return { keys := (version, key) :: keys, current := (keys.map Prod.fst).foldl max version }

variable {py} {keys keys' : List (ℤ × Bytes)} {env : List (String × String)}

theorem length_of_decodeKey {value : String} {key : Bytes} (h : decodeKey value = .ok key) :
    key.length = 32 := by
  unfold decodeKey at h
  dsimp only at h
  generalize [Base64.decode (strip value).toList, fromHex (strip value).toList].reduceOption = keys at h
  split at h
  · rename_i found hfound
    obtain rfl := Except.ok.inj h
    have hlength := List.find?_some hfound
    exact of_decide_eq_true hlength
  · cases h

theorem addEnvKey_length {entry : String × String} (h : addEnvKey py keys entry = .ok keys')
    (hkeys : ∀ e ∈ keys, e.2.length = 32) : ∀ e ∈ keys', e.2.length = 32 := by
  obtain ⟨version, -, h⟩ := Except.bind_eq_ok.mp h
  cases version with
  | none =>
    obtain rfl := Except.ok.inj h
    exact hkeys
  | some version =>
    obtain ⟨key, hkey, h⟩ := Except.bind_eq_ok.mp h
    obtain rfl := Except.ok.inj h
    exact List.forall_mem_cons.mpr ⟨length_of_decodeKey hkey, hkeys⟩

theorem foldlM_addEnvKey_length : ∀ {env : List (String × String)} {keys : List (ℤ × Bytes)},
    env.foldlM (addEnvKey py) keys = .ok keys' → (∀ e ∈ keys, e.2.length = 32) →
      ∀ e ∈ keys', e.2.length = 32
  | [], _, h, hkeys => by
    obtain rfl := Except.ok.inj h
    exact hkeys
  | _ :: _, _, h, hkeys => by
    rw [List.foldlM_cons] at h
    obtain ⟨_, hstep, h⟩ := Except.bind_eq_ok.mp h
    exact foldlM_addEnvKey_length h (addEnvKey_length hstep hkeys)

/-- A provider from the environment holds its current version, with a key of 32 bytes. -/
theorem fromEnv_current {p : LocalKeyProvider} (h : fromEnv py env = .ok p) :
    ∃ key, p.toKeyProvider.getKey p.toKeyProvider.currentVersion = some key ∧ key.length = 32 := by
  obtain ⟨keys, hkeys, h⟩ := Except.bind_eq_ok.mp h
  have hlengths := foldlM_addEnvKey_length hkeys (by simp)
  cases keys with
  | nil => cases h
  | cons entry keys =>
    obtain rfl := Except.ok.inj h
    have hmax : (keys.map Prod.fst).foldl max entry.1 ∈ (entry :: keys).map Prod.fst :=
      List.max?_mem List.max?_cons'
    obtain ⟨e, he, hcurrent⟩ := List.mem_map.mp hmax
    have hsome : ((entry :: keys).lookup ((keys.map Prod.fst).foldl max entry.1)).isSome = true :=
      List.lookup_isSome_iff.mpr ⟨e, he, by simp [hcurrent]⟩
    obtain ⟨key, hkey⟩ := Option.isSome_iff_exists.mp hsome
    refine ⟨key, hkey, ?_⟩
    obtain ⟨before, after, hsplit, -⟩ := List.lookup_eq_some_iff.mp hkey
    have hmem : ((keys.map Prod.fst).foldl max entry.1, key) ∈ entry :: keys := by
      rw [hsplit]
      exact List.mem_append_right _ List.mem_cons_self
    exact hlengths _ hmem

end FromEnv

/-! ## Blobs -/

structure EnvelopeBlob where
  keyVersion : ℤ
  dekNonce : Bytes
  wrappedDek : Bytes
  dataNonce : Bytes
  ciphertext : Bytes
  deriving DecidableEq

/-- `_MAGIC`. -/
def envelopeMagic : Bytes := encode "TGSE1"

namespace EnvelopeBlob

/-- The texts of the header, the version first. -/
def headerTexts (blob : EnvelopeBlob) (version : List Char) : List (List Char × List Char) :=
  [("v".toList, version), ("wn".toList, JsonText.quote (Base64.encode blob.dekNonce)),
    ("wd".toList, JsonText.quote (Base64.encode blob.wrappedDek)),
    ("dn".toList, JsonText.quote (Base64.encode blob.dataNonce))]

/-- The header, unless the version has too many digits to be written. -/
def header (blob : EnvelopeBlob) : Except CryptoError Bytes :=
  match JsonText.dumpsInt blob.keyVersion with
  | some version => .ok (encode (String.ofList (JsonText.dumpsDict (blob.headerTexts version))))
  | none => .error .valueError

/-- `EnvelopeBlob.pack`; the length of the header has two bytes. -/
def pack (blob : EnvelopeBlob) : Except CryptoError Bytes := do
  let header ← blob.header
  if 65535 < header.length then throw .overflowError
  return envelopeMagic ++ bigEndian 2 header.length ++ header ++ blob.ciphertext

/-- `h[key]`. -/
def item (h : Json) (key : String) : Except CryptoError Json :=
  match h with
  | .dict entries =>
    match entries.lookup key with
    | some v => .ok v
    | none => .error .keyError
  | _ => .error .typeError

/-- `base64.b64decode(h[key])`. -/
def bytesItem (h : Json) (key : String) : Except CryptoError Bytes := do
  match ← item h key with
  | .str s =>
    match Base64.decode s.toList with
    | some bs => return bs
    | none => throw .valueError
  | _ => throw .typeError

/-- The version in a header. One that is no integer does not make a blob of this type. -/
def versionItem (h : Json) : Except CryptoError ℤ := do
  match ← item h "v" with
  | .int version => return version
  | _ => throw .typeError

/-- `json.loads` of a header in UTF-8. -/
def loadsHeader (py : Python) (bs : Bytes) : Except CryptoError Json :=
  match (decodeUtf8 bs).bind fun s => JsonText.loads py.parseFloat s.toList with
  | some h => .ok h
  | none => .error .valueError

/-- `EnvelopeBlob.unpack`. -/
def unpack (py : Python) (data : Bytes) : Except CryptoError EnvelopeBlob := do
  if ¬ envelopeMagic <+: data then throw .valueError
  let hlen := ofBigEndian ((data.drop 5).take 2)
  let h ← loadsHeader py ((data.drop 7).take hlen)
  let keyVersion ← versionItem h
  let dekNonce ← bytesItem h "wn"
  let wrappedDek ← bytesItem h "wd"
  let dataNonce ← bytesItem h "dn"
  return { keyVersion, dekNonce, wrappedDek, dataNonce, ciphertext := data.drop (7 + hlen) }

end EnvelopeBlob

/-! ## Envelopes -/

/-- What `secrets.token_bytes` returns to an encryption. -/
structure EnvelopeDraws where
  dek : Bytes
  dekNonce : Bytes
  dataNonce : Bytes
  length_dek : dek.length = 32
  length_dekNonce : dekNonce.length = 12
  length_dataNonce : dataNonce.length = 12

section Envelope

variable (aead : AesGcm) (keys : KeyProvider)

/-- `AESGCM(self._keys.get_key(version))`. -/
def kekOf (version : ℤ) : Except CryptoError Bytes :=
  match keys.getKey version with
  | some key => aesGcmKey aead key
  | none => .error .keyNotFound

/-- `SessionEnvelope.encrypt`. -/
def encryptSession (draws : EnvelopeDraws) (plaintext : Bytes) (secretRef : String) :
    Except CryptoError EnvelopeBlob := do
  let aad := encode secretRef
  let kekVersion := keys.currentVersion
  let kek ← kekOf aead keys kekVersion
  return {
    keyVersion := kekVersion
    dekNonce := draws.dekNonce
    wrappedDek := aead.encrypt kek draws.dekNonce draws.dek aad
    dataNonce := draws.dataNonce
    ciphertext := aead.encrypt draws.dek draws.dataNonce plaintext aad }

/-- `AESGCM(key).decrypt`, of the key that `AESGCM` was given. -/
def openWith (key nonce data aad : Bytes) : Except CryptoError Bytes :=
  match aead.decrypt key nonce data aad with
  | some plain => .ok plain
  | none => .error .invalidTag

/-- The body of `try` in `SessionEnvelope.decrypt`. -/
def openSession (blob : EnvelopeBlob) (aad : Bytes) : Except CryptoError Bytes := do
  let kek ← kekOf aead keys blob.keyVersion
  let dek ← openWith aead kek blob.dekNonce blob.wrappedDek aad
  let dek ← aesGcmKey aead dek
  openWith aead dek blob.dataNonce blob.ciphertext aad

/-- `SessionEnvelope.decrypt`. -/
def decryptSession (blob : EnvelopeBlob) (secretRef : String) : Except CryptoError Bytes :=
  match openSession aead keys blob (encode secretRef) with
  | .error .invalidTag => .error .envelopeDecryptError
  | .error .valueError => .error .envelopeDecryptError
  | result => result

end Envelope

/-! ## Frames -/

section Frame

open JsonText

variable {py : Python} {blob : EnvelopeBlob} {hdr data : Bytes}

theorem isPlain_base64 (bs : Bytes) : ∀ c ∈ Base64.encode bs, JsonText.isPlain c = true :=
  Base64.of_mem_encode (by decide +kernel) (by decide) bs

namespace EnvelopeBlob

def members (blob : EnvelopeBlob) (version : List Char) : List Member :=
  [⟨"v".toList, version, .int blob.keyVersion⟩,
    ⟨"wn".toList, quote (Base64.encode blob.dekNonce),
      .str (String.ofList (Base64.encode blob.dekNonce))⟩,
    ⟨"wd".toList, quote (Base64.encode blob.wrappedDek),
      .str (String.ofList (Base64.encode blob.wrappedDek))⟩,
    ⟨"dn".toList, quote (Base64.encode blob.dataNonce),
      .str (String.ofList (Base64.encode blob.dataNonce))⟩]

def entries (blob : EnvelopeBlob) : List (String × Json) :=
  [("v", .int blob.keyVersion), ("wn", .str (String.ofList (Base64.encode blob.dekNonce))),
    ("wd", .str (String.ofList (Base64.encode blob.wrappedDek))),
    ("dn", .str (String.ofList (Base64.encode blob.dataNonce)))]

theorem members_render {version : List Char} (h : dumpsInt blob.keyVersion = some version) :
    ∀ m ∈ blob.members version, m.Renders py.parseFloat := by
  have hkey : ∀ key ∈ ["v", "wn", "wd", "dn"], ∀ c ∈ key.toList, JsonText.isPlain c = true := by
    intro key hkey c hc
    have hall : (["v", "wn", "wd", "dn"].all fun key => key.toList.all JsonText.isPlain) = true := by
      decide
    exact List.all_eq_true.mp (List.all_eq_true.mp hall key hkey) c hc
  simp only [members, List.forall_mem_cons, Member.Renders]
  refine ⟨⟨hkey "v" (by simp), renders_dumpsInt h⟩, ⟨hkey "wn" (by simp), ?_⟩,
    ⟨hkey "wd" (by simp), ?_⟩, ⟨hkey "dn" (by simp), ?_⟩, by simp⟩
  · exact renders_quote (isPlain_base64 _)
  · exact renders_quote (isPlain_base64 _)
  · exact renders_quote (isPlain_base64 _)

theorem header_eq_ok (h : blob.header = .ok hdr) : ∃ version,
    dumpsInt blob.keyVersion = some version ∧
      hdr = encode (String.ofList (dumpsDict (blob.headerTexts version))) := by
  unfold header at h
  split at h
  · rename_i version hversion
    exact ⟨version, hversion, (Except.ok.inj h).symm⟩
  · cases h

theorem loadsHeader_header (h : blob.header = .ok hdr) :
    loadsHeader py hdr = .ok (.dict blob.entries) := by
  obtain ⟨version, hversion, rfl⟩ := header_eq_ok h
  have hloads := @loads_dumpsDict py.parseFloat (blob.members version) (List.cons_ne_nil _ _)
    (members_render hversion)
  have htexts : (blob.members version).map (fun m => (m.key, m.text)) = blob.headerTexts version := rfl
  have hentries : setMembers [] (blob.members version) = blob.entries := rfl
  rw [htexts, hentries] at hloads
  rw [loadsHeader, decodeUtf8_encode, Option.bind_some, String.toList_ofList, hloads]

theorem bytesItem_str {h : Json} {key : String} {bs : Bytes}
    (hitem : item h key = .ok (.str (String.ofList (Base64.encode bs)))) : bytesItem h key = .ok bs := by
  have hdecode : Base64.decode (String.ofList (Base64.encode bs)).toList = some bs := by
    rw [String.toList_ofList, Base64.decode_encode]
  generalize String.ofList (Base64.encode bs) = text at hitem hdecode
  refine Except.bind_eq_ok.mpr ⟨.str text, hitem, ?_⟩
  dsimp only
  rw [hdecode]
  rfl

theorem pack_eq_ok (h : blob.header = .ok hdr) (hfits : hdr.length ≤ 65535) :
    blob.pack = .ok (envelopeMagic ++ bigEndian 2 hdr.length ++ hdr ++ blob.ciphertext) :=
  Except.bind_eq_ok.mpr ⟨hdr, h, if_neg (Nat.not_lt.mpr hfits)⟩

theorem length_envelopeMagic : envelopeMagic.length = 5 := by decide +kernel

theorem frame_parts (hfits : hdr.length ≤ 65535) (c : Bytes) :
    let data := envelopeMagic ++ bigEndian 2 hdr.length ++ hdr ++ c
    ofBigEndian ((data.drop 5).take 2) = hdr.length ∧ (data.drop 7).take hdr.length = hdr ∧
      data.drop (7 + hdr.length) = c := by
  have hmagic := length_envelopeMagic
  have hsize : (bigEndian 2 hdr.length).length = 2 := length_bigEndian 2 _
  have hnumber : ofBigEndian (bigEndian 2 hdr.length) = hdr.length := by
    rw [ofBigEndian_bigEndian, Nat.mod_eq_of_lt (by omega)]
  intro data
  have hfive : data.drop 5 = bigEndian 2 hdr.length ++ (hdr ++ c) := by
    rw [← hmagic]
    simp [data]
  have hseven : data.drop 7 = hdr ++ c := by
    have h : data.drop 7 = (data.drop 5).drop 2 := by rw [List.drop_drop]
    rw [h, hfive, List.drop_left' hsize]
  refine ⟨?_, ?_, ?_⟩
  · rw [hfive, List.take_left' hsize, hnumber]
  · rw [hseven, List.take_left]
  · rw [← List.drop_drop, hseven, List.drop_left]

theorem unpack_frame (h : blob.header = .ok hdr) (hfits : hdr.length ≤ 65535) :
    unpack py (envelopeMagic ++ bigEndian 2 hdr.length ++ hdr ++ blob.ciphertext) = .ok blob := by
  have hmagic : envelopeMagic <+: envelopeMagic ++ bigEndian 2 hdr.length ++ hdr ++ blob.ciphertext := by
    rw [List.append_assoc, List.append_assoc]
    exact List.prefix_append _ _
  obtain ⟨hlen, hhdr, hrest⟩ := frame_parts hfits blob.ciphertext
  unfold unpack
  rw [if_neg (not_not.mpr hmagic)]
  simp only [hlen, hhdr, hrest]
  refine Except.bind_eq_ok.mpr ⟨_, loadsHeader_header h, ?_⟩
  refine Except.bind_eq_ok.mpr ⟨blob.keyVersion, rfl, ?_⟩
  refine Except.bind_eq_ok.mpr ⟨blob.dekNonce, bytesItem_str rfl, ?_⟩
  refine Except.bind_eq_ok.mpr ⟨blob.wrappedDek, bytesItem_str rfl, ?_⟩
  refine Except.bind_eq_ok.mpr ⟨blob.dataNonce, bytesItem_str rfl, ?_⟩
  rfl

theorem length_headerTexts (blob : EnvelopeBlob) (version : List Char) :
    (dumpsDict (blob.headerTexts version)).length =
      version.length + (Base64.encode blob.dekNonce).length + (Base64.encode blob.wrappedDek).length +
        (Base64.encode blob.dataNonce).length + 37 := by
  have hkeys : quote "v".toList = "\"v\"".toList ∧ quote "wn".toList = "\"wn\"".toList ∧
      quote "wd".toList = "\"wd\"".toList ∧ quote "dn".toList = "\"dn\"".toList := by decide
  obtain ⟨hv, hwn, hwd, hdn⟩ := hkeys
  simp only [dumpsDict, headerTexts, List.map_cons, List.map_nil, List.intercalate_cons_cons,
    List.intercalate_singleton, hv, hwn, hwd, hdn, quote_plain (isPlain_base64 _)]
  simp
  omega

theorem length_dumpsInt {n : ℤ} {text : List Char} (h : dumpsInt n = some text) :
    text.length ≤ maxStrDigits + 1 := by
  unfold dumpsInt at h
  obtain ⟨hsmall, h⟩ := Option.ite_none_left_eq_some.mp h
  obtain rfl := Option.some.inj h
  have hdigits : (Nat.toDigits 10 n.natAbs).length ≤ maxStrDigits :=
    (Nat.length_toDigits_le_iff (by decide) (by decide)).mpr (Nat.not_le.mp hsmall)
  rw [List.length_append]
  split
  · rw [List.length_singleton]
    omega
  · rw [List.length_nil]
    omega

theorem header_fits (h : blob.header = .ok hdr) (hdek : blob.dekNonce.length = 12)
    (hwrapped : blob.wrappedDek.length = 48) (hdata : blob.dataNonce.length = 12) :
    hdr.length ≤ 65535 := by
  obtain ⟨version, hversion, rfl⟩ := header_eq_ok h
  have hbytes := length_encode_le (dumpsDict (blob.headerTexts version))
  have htexts := length_headerTexts blob version
  have hdigits := length_dumpsInt hversion
  rw [Base64.length_encode, Base64.length_encode, Base64.length_encode, hdek, hwrapped, hdata] at htexts
  have hmax : maxStrDigits = 4300 := rfl
  omega

end EnvelopeBlob

end Frame

/-! ## Rotation and binding -/

/-- The later provider still holds the key of a version, whatever else it has got since. -/
def KeyProvider.Holds (later keys : KeyProvider) (version : ℤ) : Prop :=
  later.getKey version = keys.getKey version

/-- A blob with the two ciphertexts of different blobs; what else it has is from either of them. -/
structure Rebound (a b blob : EnvelopeBlob) : Prop where
  wrappedDek : blob.wrappedDek = a.wrappedDek
  ciphertext : blob.ciphertext = b.ciphertext
  keyVersion : blob.keyVersion = a.keyVersion ∨ blob.keyVersion = b.keyVersion
  dekNonce : blob.dekNonce = a.dekNonce ∨ blob.dekNonce = b.dekNonce
  dataNonce : blob.dataNonce = a.dataNonce ∨ blob.dataNonce = b.dataNonce

section Binding

variable {aead : AesGcm} {keys later : KeyProvider} {draws : EnvelopeDraws} {plaintext kek : Bytes}
  {secretRef : String} {blob : EnvelopeBlob}

structure Sealed (aead : AesGcm) (keys : KeyProvider) (draws : EnvelopeDraws) (plaintext : Bytes)
    (secretRef : String) (blob : EnvelopeBlob) (kek : Bytes) : Prop where
  key : kekOf aead keys blob.keyVersion = .ok kek
  dekNonce : blob.dekNonce = draws.dekNonce
  wrappedDek : blob.wrappedDek = aead.encrypt kek draws.dekNonce draws.dek (encode secretRef)
  dataNonce : blob.dataNonce = draws.dataNonce
  ciphertext : blob.ciphertext = aead.encrypt draws.dek draws.dataNonce plaintext (encode secretRef)

theorem sealed_of_encryptSession (h : encryptSession aead keys draws plaintext secretRef = .ok blob) :
    blob.keyVersion = keys.currentVersion ∧
      ∃ kek, Sealed aead keys draws plaintext secretRef blob kek := by
  obtain ⟨kek, hkek, h⟩ := Except.bind_eq_ok.mp h
  obtain rfl := Except.ok.inj h
  exact ⟨rfl, kek, hkek, rfl, rfl, rfl, rfl⟩

theorem aesGcmKey_dek (draws : EnvelopeDraws) : aesGcmKey aead draws.dek = .ok draws.dek :=
  if_pos (aead.accepts_of_length _ draws.length_dek)

theorem kekOf_of_holds {version : ℤ} (h : later.Holds keys version) :
    kekOf aead later version = kekOf aead keys version := by
  rw [kekOf, kekOf, h]

theorem decryptSession_invalid {ref : String}
    (h : openSession aead keys blob (encode ref) = .error .invalidTag) :
    decryptSession aead keys blob ref = .error .envelopeDecryptError := by
  rw [decryptSession, h]

theorem Sealed.decrypt (h : Sealed aead keys draws plaintext secretRef blob kek)
    (hholds : later.Holds keys blob.keyVersion) :
    decryptSession aead later blob secretRef = .ok plaintext := by
  have hopen : openSession aead later blob (encode secretRef) = .ok plaintext := by
    refine Except.bind_eq_ok.mpr ⟨kek, (kekOf_of_holds hholds).trans h.key, ?_⟩
    refine Except.bind_eq_ok.mpr ⟨draws.dek, ?_, ?_⟩
    · rw [openWith, h.dekNonce, h.wrappedDek, aead.decrypt_encrypt]
    · refine Except.bind_eq_ok.mpr ⟨draws.dek, aesGcmKey_dek draws, ?_⟩
      rw [openWith, h.dataNonce, h.ciphertext, aead.decrypt_encrypt]
  rw [decryptSession, hopen]

theorem decryptSession_of_wrapped {ref : String} (hkey : kekOf aead later blob.keyVersion = .ok kek)
    (hwrapped : aead.decrypt kek blob.dekNonce blob.wrappedDek (encode ref) = none) :
    decryptSession aead later blob ref = .error .envelopeDecryptError := by
  refine decryptSession_invalid (Except.bind_eq_error.mpr (.inr ⟨kek, hkey, ?_⟩))
  refine Except.bind_eq_error.mpr (.inl ?_)
  rw [openWith, hwrapped]

theorem decryptSession_of_data {ref : String} (hkey : kekOf aead later blob.keyVersion = .ok kek)
    (hwrapped : aead.decrypt kek blob.dekNonce blob.wrappedDek (encode ref) = some draws.dek)
    (hdata : aead.decrypt draws.dek blob.dataNonce blob.ciphertext (encode ref) = none) :
    decryptSession aead later blob ref = .error .envelopeDecryptError := by
  refine decryptSession_invalid (Except.bind_eq_error.mpr (.inr ⟨kek, hkey, ?_⟩))
  refine Except.bind_eq_error.mpr (.inr ⟨draws.dek, by rw [openWith, hwrapped], ?_⟩)
  refine Except.bind_eq_error.mpr (.inr ⟨draws.dek, aesGcmKey_dek draws, ?_⟩)
  rw [openWith, hdata]

section Used

variable {usedKeys nonces aads : Set Bytes} (hbinds : aead.Binds (contexts usedKeys nonces aads))
include hbinds

theorem decrypt_eq_none {key nonce aad key' nonce' aad' : Bytes} (hkey : key ∈ usedKeys)
    (hnonce : nonce ∈ nonces) (haad : aad ∈ aads) (hkey' : key' ∈ usedKeys) (hnonce' : nonce' ∈ nonces)
    (haad' : aad' ∈ aads) (hne : (⟨key, nonce, aad⟩ : GcmContext) ≠ ⟨key', nonce', aad'⟩) (data : Bytes) :
    aead.decrypt key' nonce' (aead.encrypt key nonce data aad) aad' = none :=
  hbinds ⟨key, nonce, aad⟩ ⟨hkey, hnonce, haad⟩ ⟨key', nonce', aad'⟩ ⟨hkey', hnonce', haad'⟩ hne data

theorem Sealed.other_ref {ref : String} (h : Sealed aead keys draws plaintext secretRef blob kek)
    (hholds : later.Holds keys blob.keyVersion) (hne : ref ≠ secretRef) (hkek : kek ∈ usedKeys)
    (hnonce : draws.dekNonce ∈ nonces) (haad : encode secretRef ∈ aads) (haad' : encode ref ∈ aads) :
    decryptSession aead later blob ref = .error .envelopeDecryptError := by
  refine decryptSession_of_wrapped ((kekOf_of_holds hholds).trans h.key) ?_
  rw [h.dekNonce, h.wrappedDek]
  refine decrypt_eq_none hbinds hkek hnonce haad hkek hnonce haad' (fun heq => ?_) _
  exact hne (encode_inj (GcmContext.mk.inj heq).2.2).symm

theorem Sealed.rebound {keys' : KeyProvider} {draws' : EnvelopeDraws} {plaintext' kek' : Bytes}
    {secretRef' ref : String} {blob' mixed : EnvelopeBlob}
    (h : Sealed aead keys draws plaintext secretRef blob kek)
    (h' : Sealed aead keys' draws' plaintext' secretRef' blob' kek') (hmixed : Rebound blob blob' mixed)
    (hholds : later.Holds keys blob.keyVersion) (hholds' : later.Holds keys' blob'.keyVersion)
    (hdek : draws.dek ≠ draws'.dek)
    (hkeys : ∀ key ∈ [kek, kek', draws.dek, draws'.dek], key ∈ usedKeys)
    (hnonces : ∀ nonce ∈ [draws.dekNonce, draws.dataNonce, draws'.dekNonce, draws'.dataNonce],
      nonce ∈ nonces)
    (haads : ∀ s ∈ [secretRef, secretRef', ref], encode s ∈ aads) :
    decryptSession aead later mixed ref = .error .envelopeDecryptError := by
  simp only [List.forall_mem_cons] at hkeys hnonces haads
  obtain ⟨hkek, hkek', hdekUsed, hdekUsed', -⟩ := hkeys
  obtain ⟨hdekNonce, hdataNonce, hdekNonce', hdataNonce', -⟩ := hnonces
  obtain ⟨haad, haad', hrefAad, -⟩ := haads
  have hnonce : mixed.dekNonce ∈ nonces := by
    rcases hmixed.dekNonce with heq | heq
    · rwa [heq, h.dekNonce]
    · rwa [heq, h'.dekNonce]
  have hdata : mixed.dataNonce ∈ nonces := by
    rcases hmixed.dataNonce with heq | heq
    · rwa [heq, h.dataNonce]
    · rwa [heq, h'.dataNonce]
  obtain ⟨key, hkeyUsed, hkey⟩ : ∃ key ∈ usedKeys, kekOf aead later mixed.keyVersion = .ok key := by
    rcases hmixed.keyVersion with heq | heq
    · exact ⟨kek, hkek, by rw [heq, kekOf_of_holds hholds, h.key]⟩
    · exact ⟨kek', hkek', by rw [heq, kekOf_of_holds hholds', h'.key]⟩
  by_cases heq : (⟨kek, draws.dekNonce, encode secretRef⟩ : GcmContext) =
      ⟨key, mixed.dekNonce, encode ref⟩
  · -- the wrapped key opens, but it is not the one of the other ciphertext
    obtain ⟨rfl, hsame, href⟩ := GcmContext.mk.inj heq
    refine @decryptSession_of_data aead later draws kek mixed ref hkey ?_ ?_
    · rw [hmixed.wrappedDek, h.wrappedDek, ← hsame, ← href, aead.decrypt_encrypt]
    · rw [hmixed.ciphertext, h'.ciphertext]
      refine decrypt_eq_none hbinds hdekUsed' hdataNonce' haad' hdekUsed hdata hrefAad (fun heq => ?_) _
      exact hdek (GcmContext.mk.inj heq).1.symm
  · refine decryptSession_of_wrapped hkey ?_
    rw [hmixed.wrappedDek, h.wrappedDek]
    exact decrypt_eq_none hbinds hkek hdekNonce haad hkeyUsed hnonce hrefAad heq _

end Used

end Binding

/-- The keys, the nonces and the secret reference of an encryption are among those in use. -/
structure InUse (aead : AesGcm) (usedKeys nonces aads : Set Bytes)
    (keys : KeyProvider) (draws : EnvelopeDraws)
    (secretRef : String) : Prop where
  kek : ∀ kek, kekOf aead keys keys.currentVersion = .ok kek → kek ∈ usedKeys
  dek : draws.dek ∈ usedKeys
  dekNonce : draws.dekNonce ∈ nonces
  dataNonce : draws.dataNonce ∈ nonces
  aad : encode secretRef ∈ aads

section Laws

variable {aead : AesGcm} {keys later : KeyProvider} {draws : EnvelopeDraws} {plaintext : Bytes}
  {secretRef : String} {blob : EnvelopeBlob} {py : Python}

theorem header_isOk (h : blob.keyVersion.natAbs < 10 ^ maxStrDigits) : ∃ hdr, blob.header = .ok hdr := by
  obtain ⟨text, htext⟩ := JsonText.dumpsInt_isSome h
  unfold EnvelopeBlob.header
  rw [htext]
  exact ⟨_, rfl⟩

theorem encryptSession_reads_back {kek : Bytes} (hkek : kekOf aead keys keys.currentVersion = .ok kek)
    (hversion : keys.currentVersion.natAbs < 10 ^ maxStrDigits) (draws : EnvelopeDraws)
    (plaintext : Bytes) (secretRef : String) :
    ∃ blob data, encryptSession aead keys draws plaintext secretRef = .ok blob ∧
      blob.pack = .ok data ∧ EnvelopeBlob.unpack py data = .ok blob ∧
      ∀ later : KeyProvider, later.Holds keys keys.currentVersion →
        decryptSession aead later blob secretRef = .ok plaintext := by
  have hencrypt : ∃ blob, encryptSession aead keys draws plaintext secretRef = .ok blob :=
    ⟨_, Except.bind_eq_ok.mpr ⟨kek, hkek, rfl⟩⟩
  obtain ⟨blob, hencrypt⟩ := hencrypt
  obtain ⟨hcurrent, kek, hsealed⟩ := sealed_of_encryptSession hencrypt
  obtain ⟨hdr, hhdr⟩ := @header_isOk blob (by rwa [hcurrent])
  have hfits : hdr.length ≤ 65535 := by
    refine EnvelopeBlob.header_fits hhdr ?_ ?_ ?_
    · rw [hsealed.dekNonce, draws.length_dekNonce]
    · rw [hsealed.wrappedDek, aead.length_encrypt, draws.length_dek]
    · rw [hsealed.dataNonce, draws.length_dataNonce]
  refine ⟨blob, _, hencrypt, EnvelopeBlob.pack_eq_ok hhdr hfits,
    EnvelopeBlob.unpack_frame hhdr hfits, ?_⟩
  intro later hholds
  exact hsealed.decrypt (hcurrent ▸ hholds)

/-- Sessions are encrypted under every provider that is read from the environment. -/
theorem kekOf_fromEnv {env : List (String × String)} {p : LocalKeyProvider}
    (h : fromEnv py env = .ok p) :
    ∃ kek, kekOf aead p.toKeyProvider p.toKeyProvider.currentVersion = .ok kek := by
  obtain ⟨key, hkey, hlength⟩ := fromEnv_current h
  unfold kekOf
  rw [hkey]
  exact ⟨key, if_pos (aead.accepts_of_length key hlength)⟩

/-- What is stored of an encryption is read back, frames are taken apart where they were put together,
and neither another secret reference nor a ciphertext of another blob passes. -/
theorem envelope_laws (aead : AesGcm) (py : Python) :
    (∀ keys : KeyProvider, ∀ kek, kekOf aead keys keys.currentVersion = .ok kek →
      keys.currentVersion.natAbs < 10 ^ maxStrDigits → ∀ draws plaintext secretRef,
      ∃ blob data, encryptSession aead keys draws plaintext secretRef = .ok blob ∧
        blob.pack = .ok data ∧ EnvelopeBlob.unpack py data = .ok blob ∧
        ∀ later : KeyProvider, later.Holds keys keys.currentVersion →
          decryptSession aead later blob secretRef = .ok plaintext) ∧
    (∀ (blob : EnvelopeBlob) hdr, blob.header = .ok hdr → hdr.length ≤ 65535 →
      ∃ data, blob.pack = .ok data ∧ EnvelopeBlob.unpack py data = .ok blob) ∧
    ∀ usedKeys nonces aads, aead.Binds (contexts usedKeys nonces aads) →
      (∀ keys draws plaintext secretRef blob, InUse aead usedKeys nonces aads keys draws secretRef →
        encryptSession aead keys draws plaintext secretRef = .ok blob →
        ∀ later : KeyProvider, later.Holds keys blob.keyVersion →
        ∀ ref ≠ secretRef, encode ref ∈ aads →
          decryptSession aead later blob ref = .error .envelopeDecryptError) ∧
      ∀ keys draws plaintext secretRef blob keys' draws' plaintext' secretRef' blob',
        InUse aead usedKeys nonces aads keys draws secretRef →
        InUse aead usedKeys nonces aads keys' draws' secretRef' →
        encryptSession aead keys draws plaintext secretRef = .ok blob →
        encryptSession aead keys' draws' plaintext' secretRef' = .ok blob' →
        draws.dek ≠ draws'.dek → ∀ mixed, Rebound blob blob' mixed →
        ∀ later : KeyProvider, later.Holds keys blob.keyVersion → later.Holds keys' blob'.keyVersion →
        ∀ ref, encode ref ∈ aads →
          decryptSession aead later mixed ref = .error .envelopeDecryptError := by
  refine ⟨fun keys kek hkek hversion => encryptSession_reads_back hkek hversion, ?_, ?_⟩
  · intro blob hdr hhdr hfits
    exact ⟨_, EnvelopeBlob.pack_eq_ok hhdr hfits, EnvelopeBlob.unpack_frame hhdr hfits⟩
  · intro usedKeys nonces aads hbinds
    constructor
    · intro keys draws plaintext secretRef blob huse hencrypt later hholds ref hne haad
      obtain ⟨hcurrent, kek, hsealed⟩ := sealed_of_encryptSession hencrypt
      exact hsealed.other_ref hbinds hholds hne (huse.kek kek (hcurrent ▸ hsealed.key)) huse.dekNonce
        huse.aad haad
    · intro keys draws plaintext secretRef blob keys' draws' plaintext' secretRef' blob' huse huse'
        hencrypt hencrypt' hdek mixed hmixed later hholds hholds' ref haad
      obtain ⟨hcurrent, kek, hsealed⟩ := sealed_of_encryptSession hencrypt
      obtain ⟨hcurrent', kek', hsealed'⟩ := sealed_of_encryptSession hencrypt'
      have hkek := huse.kek kek (hcurrent ▸ hsealed.key)
      have hkek' := huse'.kek kek' (hcurrent' ▸ hsealed'.key)
      refine hsealed.rebound hbinds hsealed' hmixed hholds hholds' hdek ?_ ?_ ?_
      · simp [hkek, hkek', huse.dek, huse'.dek]
      · simp [huse.dekNonce, huse.dataNonce, huse'.dekNonce, huse'.dataNonce]
      · simp [huse.aad, huse'.aad, haad]

/-! ### A rotation -/

def firstProvider : KeyProvider := LocalKeyProvider.toKeyProvider ⟨[(1, List.replicate 32 107)], 1⟩

def rotatedProvider : KeyProvider :=
  LocalKeyProvider.toKeyProvider ⟨[(2, List.replicate 32 122), (1, List.replicate 32 107)], 2⟩

def firstDraws : EnvelopeDraws :=
  ⟨List.replicate 32 1, List.replicate 12 2, List.replicate 12 3, rfl, rfl, rfl⟩

def secondDraws : EnvelopeDraws :=
  ⟨List.replicate 32 4, List.replicate 12 5, List.replicate 12 6, rfl, rfl, rfl⟩

def drawnKeys : List Bytes := [List.replicate 32 107, List.replicate 32 1, List.replicate 32 4]

def drawnNonces : List Bytes :=
  [List.replicate 12 2, List.replicate 12 3, List.replicate 12 5, List.replicate 12 6]

def drawnRefs : List Bytes := [encode "a", encode "b"]

structure GcmCase extends GcmContext where
  data : Bytes
  ciphertext : Bytes

/-- What AES-256-GCM makes of the data of two sessions. -/
def gcmCases : List GcmCase := [
  ⟨⟨List.replicate 32 107, List.replicate 12 2, encode "a"⟩, List.replicate 32 1,
    [146, 201, 111, 125, 47, 218, 250, 221, 155, 57, 111, 220, 10, 22, 59, 53, 247, 207, 152, 230, 171, 50,
      132, 210, 39, 29, 235, 127, 224, 151, 72, 68, 141, 69, 164, 160, 223, 236, 65, 36, 182, 236, 31, 153,
      139, 15, 197, 53]⟩,
  ⟨⟨List.replicate 32 1, List.replicate 12 3, encode "a"⟩, [1, 2, 3],
    [249, 99, 23, 189, 95, 159, 189, 46, 127, 28, 32, 253, 92, 19, 111, 195, 172, 30, 208]⟩,
  ⟨⟨List.replicate 32 107, List.replicate 12 5, encode "b"⟩, List.replicate 32 4,
    [215, 1, 132, 90, 179, 161, 176, 25, 92, 228, 155, 83, 161, 47, 7, 35, 50, 157, 147, 63, 157, 56, 94,
      227, 66, 152, 135, 184, 145, 84, 68, 165, 47, 32, 78, 115, 207, 217, 224, 157, 99, 159, 88, 127, 191,
      179, 197, 176]⟩,
  ⟨⟨List.replicate 32 4, List.replicate 12 6, encode "b"⟩, [4],
    [33, 170, 230, 98, 191, 206, 154, 31, 228, 189, 3, 53, 56, 67, 211, 55, 59]⟩]

/-- A tag of key, nonce and associated data, as far as sixteen bytes go. -/
def shortTag (c : GcmContext) : Bytes := bigEndian 16 (ofBigEndian (c.key ++ c.nonce ++ c.aad))

/-- The ciphertext of a case and its data in the clear with a short tag change places. -/
def exchange (c : GcmContext) (w : Bytes) : Bytes :=
  match gcmCases.find? fun x => x.toGcmContext = c with
  | none => w
  | some x =>
    if w = x.data ++ shortTag c then x.ciphertext
    else if w = x.ciphertext then x.data ++ shortTag c
    else w

theorem exchange_exchange (c : GcmContext) (w : Bytes) : exchange c (exchange c w) = w := by
  unfold exchange
  split
  · rfl
  · rename_i x _
    dsimp only
    by_cases hdata : w = x.data ++ shortTag c
    · by_cases hsame : x.ciphertext = x.data ++ shortTag c <;> simp [hdata, hsame]
    · by_cases hcipher : w = x.ciphertext
      · simp [hcipher, hcipher ▸ hdata]
      · simp [hdata, hcipher]

theorem length_exchange (c : GcmContext) (w : Bytes) : (exchange c w).length = w.length := by
  unfold exchange
  split
  · rfl
  · rename_i x hx
    have hlength : ∀ x ∈ gcmCases, x.ciphertext.length = x.data.length + 16 := by decide
    have hcase := hlength x (List.mem_of_find?_eq_some hx)
    split
    · rename_i hdata
      simp [hdata, hcase, shortTag]
    · split
      · rename_i hcipher
        simp [hcipher, hcase, shortTag]
      · rfl

def tagOf (w : Bytes) : Bytes := w.drop (w.length - 16)

theorem tagOf_append (data : Bytes) (c : GcmContext) : tagOf (data ++ shortTag c) = shortTag c := by
  have hlength : (data ++ shortTag c).length - 16 = data.length := by simp [shortTag]
  rw [tagOf, hlength, List.drop_left]

/-- AES-256-GCM on the cases. Any other data it leaves in the clear, with a short tag. -/
def tableGcm : AesGcm where
  accepts key := key.length = 16 || key.length = 24 || key.length = 32
  encrypt key nonce data aad := exchange ⟨key, nonce, aad⟩ (data ++ shortTag ⟨key, nonce, aad⟩)
  decrypt key nonce data aad :=
    let w := exchange ⟨key, nonce, aad⟩ data
    if tagOf w = shortTag ⟨key, nonce, aad⟩ then some (w.take (w.length - 16)) else none
  accepts_of_length key h := by simp [h]
  decrypt_encrypt key nonce data aad := by
    have hlength : (data ++ shortTag ⟨key, nonce, aad⟩).length - 16 = data.length := by
      simp [shortTag]
    dsimp only
    rw [exchange_exchange, tagOf_append, hlength, List.take_left, if_pos rfl]
  length_encrypt key nonce data aad := by
    rw [length_exchange]
    simp [shortTag]

theorem exchange_cases (c : GcmContext) (w : Bytes) : exchange c w = w ∨
    ∃ x ∈ gcmCases, x.toGcmContext = c ∧
      (exchange c w = x.ciphertext ∨ w = x.ciphertext ∧ exchange c w = x.data ++ shortTag c) := by
  unfold exchange
  split
  · exact .inl rfl
  · rename_i x hx
    have hcontext := List.find?_some hx
    rw [decide_eq_true_iff] at hcontext
    have hmem := List.mem_of_find?_eq_some hx
    split
    · exact .inr ⟨x, hmem, hcontext, .inl rfl⟩
    · split
      · rename_i hcipher
        exact .inr ⟨x, hmem, hcontext, .inr ⟨hcipher, rfl⟩⟩
      · exact .inl rfl

def drawnContexts : List GcmContext :=
  drawnKeys.flatMap fun key => drawnNonces.flatMap fun nonce => drawnRefs.map fun aad => ⟨key, nonce, aad⟩

theorem mem_drawnContexts {c : GcmContext}
    (h : c ∈ contexts { k | k ∈ drawnKeys } { n | n ∈ drawnNonces } { a | a ∈ drawnRefs }) :
    c ∈ drawnContexts := by
  obtain ⟨hkey, hnonce, haad⟩ := h
  refine List.mem_flatMap.mpr ⟨c.key, hkey, List.mem_flatMap.mpr ⟨c.nonce, hnonce, ?_⟩⟩
  exact List.mem_map.mpr ⟨c.aad, haad, rfl⟩

theorem shortTag_drawn : ∀ c ∈ drawnContexts, ∀ c' ∈ drawnContexts, shortTag c = shortTag c' → c = c' := by
  decide +kernel

theorem tagOf_ciphertext : ∀ x ∈ gcmCases, ∀ c ∈ drawnContexts, tagOf x.ciphertext ≠ shortTag c := by
  decide +kernel

theorem ciphertext_context : ∀ x ∈ gcmCases, ∀ y ∈ gcmCases, x.ciphertext = y.ciphertext →
    x.toGcmContext = y.toGcmContext := by
  decide +kernel

theorem tableGcm_binds :
    tableGcm.Binds (contexts { k | k ∈ drawnKeys } { n | n ∈ drawnNonces } { a | a ∈ drawnRefs }) := by
  intro c hc c' hc' hne data
  have hdrawn := mem_drawnContexts hc
  have hdrawn' := mem_drawnContexts hc'
  have htags : shortTag c ≠ shortTag c' := fun h => hne (shortTag_drawn c hdrawn c' hdrawn' h)
  -- what is encrypted has the tag of its own context, or is the ciphertext of a case of it
  have hsealed : tagOf (exchange c (data ++ shortTag c)) = shortTag c ∨
      ∃ x ∈ gcmCases, x.toGcmContext = c ∧ exchange c (data ++ shortTag c) = x.ciphertext := by
    rcases exchange_cases c (data ++ shortTag c) with hsame | ⟨x, hx, hcontext, hcipher | ⟨hw, -⟩⟩
    · exact .inl (by rw [hsame, tagOf_append])
    · exact .inr ⟨x, hx, hcontext, hcipher⟩
    · exact absurd (hw ▸ tagOf_append data c) (tagOf_ciphertext x hx c hdrawn)
  generalize hy : exchange c (data ++ shortTag c) = y at hsealed
  have hopened : tagOf (exchange c' y) ≠ shortTag c' := by
    rcases exchange_cases c' y with hsame | ⟨x', hx', hcontext', hcipher | ⟨hw, -⟩⟩
    · rw [hsame]
      rcases hsealed with htag | ⟨x, hx, -, rfl⟩
      · rwa [htag]
      · exact tagOf_ciphertext x hx c' hdrawn'
    · rw [hcipher]
      exact tagOf_ciphertext x' hx' c' hdrawn'
    · rcases hsealed with htag | ⟨x, hx, hcontext, rfl⟩
      · exact absurd (hw ▸ htag) (tagOf_ciphertext x' hx' c hdrawn)
      · exact absurd (hcontext ▸ hcontext' ▸ ciphertext_context x hx x' hx' hw) hne
  have hdecrypt : tableGcm.decrypt c'.key c'.nonce (tableGcm.encrypt c.key c.nonce data c.aad) c'.aad =
      if tagOf (exchange c' y) = shortTag c' then
        some ((exchange c' y).take ((exchange c' y).length - 16))
      else none := by
    rw [← hy]
    rfl
  rw [hdecrypt, if_neg hopened]

theorem inUse_first : InUse tableGcm { k | k ∈ drawnKeys } { n | n ∈ drawnNonces } { a | a ∈ drawnRefs }
    firstProvider firstDraws "a" where
  kek kek h := by
    have hkek : List.replicate 32 107 = kek := Except.ok.inj h
    rw [← hkek]
    exact List.mem_cons_self
  dek := by decide
  dekNonce := by decide
  dataNonce := by decide
  aad := List.mem_cons_self

theorem inUse_second : InUse tableGcm { k | k ∈ drawnKeys } { n | n ∈ drawnNonces } { a | a ∈ drawnRefs }
    firstProvider secondDraws "b" where
  kek kek h := by
    have hkek : List.replicate 32 107 = kek := Except.ok.inj h
    rw [← hkek]
    exact List.mem_cons_self
  dek := by decide
  dekNonce := by decide
  dataNonce := by decide
  aad := List.mem_cons_of_mem _ List.mem_cons_self

def noFloats : Python where
  sha256 _ := ""
  hmacSha256 _ _ := ""
  loads _ := .error .decode
  parseInt _ := none
  parseFloat _ := none
  repr _ := ""
  environ _ := none
  isDigit _ := false

/-- Two sessions that are encrypted before a rotation and read after it. -/
theorem envelope_laws_rotated : ∃ blob data blob',
    encryptSession tableGcm firstProvider firstDraws [1, 2, 3] "a" = .ok blob ∧
      encryptSession tableGcm firstProvider secondDraws [4] "b" = .ok blob' ∧
      blob.pack = .ok data ∧ EnvelopeBlob.unpack noFloats data = .ok blob ∧
      decryptSession tableGcm rotatedProvider blob "a" = .ok [1, 2, 3] ∧
      decryptSession tableGcm rotatedProvider blob "b" = .error .envelopeDecryptError ∧
      decryptSession tableGcm rotatedProvider { blob' with wrappedDek := blob.wrappedDek } "b" =
        .error .envelopeDecryptError := by
  have hkek : kekOf tableGcm firstProvider firstProvider.currentVersion = .ok (List.replicate 32 107) := rfl
  have hversion : (1 : ℤ).natAbs < 10 ^ maxStrDigits := Nat.one_lt_pow (by decide) (by decide)
  obtain ⟨hround, -, hbound⟩ := envelope_laws tableGcm noFloats
  obtain ⟨hother, hmixed⟩ := hbound _ _ _ tableGcm_binds
  obtain ⟨blob, data, hblob, hpack, hunpack, hread⟩ := hround _ _ hkek hversion firstDraws [1, 2, 3] "a"
  obtain ⟨blob', data', hblob', -, -, -⟩ := hround _ _ hkek hversion secondDraws [4] "b"
  have hcurrent := (sealed_of_encryptSession hblob).1
  have hcurrent' := (sealed_of_encryptSession hblob').1
  have hholds : rotatedProvider.Holds firstProvider firstProvider.currentVersion := rfl
  refine ⟨blob, data, blob', hblob, hblob', hpack, hunpack, hread _ hholds, ?_, ?_⟩
  · exact hother _ _ _ _ _ inUse_first hblob _ (hcurrent ▸ hholds) "b" (by decide)
      (List.mem_cons_of_mem _ List.mem_cons_self)
  · refine hmixed _ _ _ _ _ _ _ _ _ _ inUse_first inUse_second hblob hblob' (by decide)
      { blob' with wrappedDek := blob.wrappedDek } ⟨rfl, rfl, .inr rfl, .inr rfl, .inr rfl⟩ _
      (hcurrent ▸ hholds) (hcurrent' ▸ hholds) "b"
      (List.mem_cons_of_mem _ List.mem_cons_self)

def farProvider : KeyProvider := ⟨10 ^ maxStrDigits, fun _ => some (List.replicate 32 107)⟩

/-- A session that is encrypted under such a version is not packed. -/
theorem far_version_is_not_packed : ∃ blob,
    encryptSession tableGcm farProvider firstDraws [1, 2, 3] "a" = .ok blob ∧
      blob.pack = .error .valueError := by
  have hkek : kekOf tableGcm farProvider farProvider.currentVersion = .ok (List.replicate 32 107) := by
    unfold kekOf tableGcm farProvider
    rfl
  refine ⟨_, Except.bind_eq_ok.mpr ⟨_, hkek, rfl⟩, Except.bind_eq_error.mpr (.inl ?_)⟩
  have hten : (10 : ℤ).natAbs = 10 := rfl
  have hlong : JsonText.dumpsInt farProvider.currentVersion = none := by
    unfold JsonText.dumpsInt farProvider
    rw [Int.natAbs_pow, hten, if_pos (Nat.le_refl _)]
  unfold EnvelopeBlob.header
  dsimp only
  rw [hlong]

end Laws

end TgPlatform
