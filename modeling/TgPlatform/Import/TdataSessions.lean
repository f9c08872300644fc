import TgPlatform.Import.Tdata

/-! # The sessions of a desktop client

Each account of the client becomes one session for its main data centre. The
keys of both lists have been merged under their bare ids by then, and any key
stands in for one that is missing.
-/

namespace TgPlatform

/-- A row of `DC_ENDPOINTS`. -/
abbrev Endpoint : Type := String × ℕ

/-- `DC_ENDPOINTS.get(dc_id, DC_ENDPOINTS[2])`. -/
def endpointOf (dcId : ℤ) : Endpoint :=
  if dcId = 1 then ("149.154.175.53", 443)
  else if dcId = 3 then ("149.154.175.100", 443)
  else if dcId = 4 then ("149.154.167.91", 443)
  else if dcId = 5 then ("91.108.56.130", 443)
  else ("149.154.167.51", 443)

/-- The name of a session's files: the base name, the position and the id of the account. -/
structure SessionKey where
  baseName : String
  index : ℕ
  userId : ℤ
  deriving DecidableEq, Repr

/-- What `_write_sqlite_session` writes, and for which account. -/
structure WrittenSession where
  key : SessionKey
  dcId : ℤ
  endpoint : Endpoint
  authKey : List UInt8
  deriving DecidableEq, Repr

/-- `acct.keys.get(dc) or next(iter(acct.keys.values()), None)`. -/
def SelfSerialized.authKey (acct : SelfSerialized) (dc : ℤ) : Option (List UInt8) :=
  ((acct.keys.lookup dc).filter fun key => key ≠ []).or (acct.keys.head?.map Prod.snd)

/-- A round of `convert_tdata`. -/
def convertAccount (baseName : String) (i : ℕ) (acct : SelfSerialized) : Option WrittenSession :=
  let dc := acct.mainDc % dcShift
  (acct.authKey dc).map fun authKey => {
    key := ⟨baseName, i, acct.userId⟩
    dcId := dc
    endpoint := endpointOf dc
    authKey }

/-- `convert_tdata`, on the accounts of the directory. -/
def convertTdata (baseName : String) (accounts : List SelfSerialized) : List WrittenSession :=
  accounts.zipIdx.filterMap fun p => convertAccount baseName p.2 p.1

section Merging

variable {keys entries : List (ℤ × List UInt8)} {d : ℤ}

theorem lookup_setDefault (entry : ℤ × List UInt8) : (setDefault keys entry).lookup d =
    (keys.lookup d).or (if entry.1 = d then some entry.2 else none) := by
  unfold setDefault
  split
  · rename_i hany
    obtain ⟨x, hx, hid⟩ := List.any_eq_true.mp hany
    split
    · rename_i hd
      have hsome : keys.lookup d ≠ none := by
        intro hnone
        have hne := List.lookup_eq_none_iff.mp hnone x hx
        rw [of_decide_eq_true hid, hd] at hne
        simp at hne
      obtain ⟨key, hkey⟩ := Option.ne_none_iff_exists'.mp hsome
      rw [hkey]
      rfl
    · exact Option.or_none.symm
  · rw [List.lookup_append]
    congr 1
    split
    · rename_i hd
      rw [← hd]
      exact List.lookup_cons_self
    · rename_i hd
      exact List.lookup_eq_none_iff.mpr (by simpa using Ne.symm hd)

theorem lookup_mergeKeys : (mergeKeys keys entries).lookup d =
    (keys.lookup d).or ((entries.find? fun e => e.1 % dcShift = d).map Prod.snd) := by
  induction entries generalizing keys with
  | nil => exact (Option.or_none).symm
  | cons e entries ih =>
    unfold mergeKeys at ih ⊢
    rw [List.foldl_cons, ih, lookup_setDefault, Option.or_assoc, List.find?_cons]
    by_cases hid : e.1 % dcShift = d
    · simp [hid]
    · simp [hid]

theorem head?_mergeKeys : (mergeKeys keys entries).head? =
    keys.head?.or (entries.head?.map fun e => (e.1 % dcShift, e.2)) := by
  induction entries generalizing keys with
  | nil => exact (Option.or_none).symm
  | cons e entries ih =>
    unfold mergeKeys at ih ⊢
    rw [List.foldl_cons, ih]
    cases keys with
    | nil => rfl
    | cons x keys =>
      unfold setDefault
      split <;> rfl

end Merging

section Sessions

variable {userId mainDc : ℤ} {keys destroyed : List (ℤ × List UInt8)} {acct : SelfSerialized}
  {baseName : String} {accounts : List SelfSerialized} {i : ℕ}

/-- The session's key is that of the first entry of both lists with the bare id of the main data
centre, or else of the first entry at all. -/
theorem authKey_merged (hkeys : ∀ e ∈ keys ++ destroyed, KeyFits e) (dc : ℤ) :
    (SelfSerialized.mk userId mainDc (mergeKeys [] (keys ++ destroyed))).authKey dc =
      (((keys ++ destroyed).find? fun e => e.1 % dcShift = dc).or (keys ++ destroyed).head?).map
        Prod.snd := by
  unfold SelfSerialized.authKey
  dsimp only
  rw [lookup_mergeKeys, head?_mergeKeys, List.lookup_nil, Option.none_or, List.head?_nil, Option.none_or,
    Option.map_map]
  cases hfind : (keys ++ destroyed).find? fun e => e.1 % dcShift = dc with
  | none => rfl
  | some e =>
    have hlong : e.2 ≠ [] := by
      intro hnil
      have hlength := (hkeys e (List.mem_of_find?_eq_some hfind)).2
      rw [hnil] at hlength
      cases hlength
    simp [hlong]

/-- The sessions that `convert_tdata` writes for the account at a position. -/
def sessionsOf (sessions : List WrittenSession) (baseName : String) (i : ℕ) (userId : ℤ) :
    List WrittenSession :=
  sessions.filter fun session => session.key = ⟨baseName, i, userId⟩

theorem key_of_convertAccount {session : WrittenSession}
    (h : convertAccount baseName i acct = some session) :
    session.key = ⟨baseName, i, acct.userId⟩ := by
  obtain ⟨_, -, rfl⟩ := Option.map_eq_some_iff.mp h
  rfl

theorem le_index_of_mem {n : ℕ} {session : WrittenSession}
    (h : session ∈ (accounts.zipIdx n).filterMap fun p => convertAccount baseName p.2 p.1) :
    n ≤ session.key.index := by
  obtain ⟨⟨a, j⟩, hmem, hsession⟩ := List.mem_filterMap.mp h
  rw [key_of_convertAccount hsession]
  exact List.le_snd_of_mem_zipIdx hmem

theorem sessionsOf_zipIdx {n : ℕ} (hacct : accounts[i]? = some acct) :
    sessionsOf ((accounts.zipIdx n).filterMap fun p => convertAccount baseName p.2 p.1) baseName (n + i)
      acct.userId = (convertAccount baseName (n + i) acct).toList := by
  induction accounts generalizing n i with
  | nil => cases hacct
  | cons a accounts ih =>
    have hcons : ((a :: accounts).zipIdx n).filterMap (fun p => convertAccount baseName p.2 p.1) =
        (convertAccount baseName n a).toList ++
          (accounts.zipIdx (n + 1)).filterMap fun p => convertAccount baseName p.2 p.1 := by
      rw [List.zipIdx_cons, List.filterMap_cons]
      cases convertAccount baseName n a <;> rfl
    rw [hcons, sessionsOf, List.filter_append]
    cases i with
    | zero =>
      obtain rfl := Option.some.inj hacct
      have hown : (convertAccount baseName n a).toList.filter (fun session =>
          session.key = ⟨baseName, n + 0, a.userId⟩) = (convertAccount baseName n a).toList := by
        refine List.filter_eq_self.mpr fun session hsession => ?_
        exact decide_eq_true (key_of_convertAccount (Option.mem_toList.mp hsession))
      have hrest : ((accounts.zipIdx (n + 1)).filterMap fun p => convertAccount baseName p.2 p.1).filter
          (fun session => session.key = ⟨baseName, n + 0, a.userId⟩) = [] := by
        refine List.filter_eq_nil_iff.mpr fun session hsession hkey => ?_
        have hle := le_index_of_mem hsession
        rw [of_decide_eq_true hkey] at hle
        exact absurd hle (by simp)
      rw [hown, hrest, List.append_nil, Nat.add_zero]
    | succ i =>
      have hfirst : (convertAccount baseName n a).toList.filter (fun session =>
          session.key = ⟨baseName, n + (i + 1), acct.userId⟩) = [] := by
        refine List.filter_eq_nil_iff.mpr fun session hsession hkey => ?_
        have hown := key_of_convertAccount (Option.mem_toList.mp hsession)
        rw [of_decide_eq_true hkey] at hown
        injection hown with _ hindex
        omega
      rw [hfirst, List.nil_append, show n + (i + 1) = n + 1 + i by omega]
      exact ih hacct

theorem sessionsOf_convertTdata (hacct : accounts[i]? = some acct) :
    sessionsOf (convertTdata baseName accounts) baseName i acct.userId =
      (convertAccount baseName i acct).toList := by
  have h := @sessionsOf_zipIdx acct baseName accounts i 0 hacct
  rwa [Nat.zero_add] at h

/-- What the sessions hold is the key that the current list has for the main data centre itself. -/
def UsesMainKey (mainDc : ℤ) (keys : List (ℤ × List UInt8)) (sessions : List WrittenSession) : Prop :=
  sessions.map (fun session => (session.dcId, session.authKey)) =
    (keys.lookup (mainDc % dcShift)).toList.map fun key => (mainDc % dcShift, key)

theorem usesMainKey_convertAccount : UsesMainKey acct.mainDc keys
    (convertAccount baseName i acct).toList ↔
    acct.authKey (acct.mainDc % dcShift) = keys.lookup (acct.mainDc % dcShift) := by
  unfold UsesMainKey convertAccount
  dsimp only
  generalize acct.authKey (acct.mainDc % dcShift) = own
  generalize keys.lookup (acct.mainDc % dcShift) = main
  cases own <;> cases main <;> simp

theorem exists_find?_of_lookup {key : List UInt8} (h : keys.lookup (mainDc % dcShift) = some key) :
    ∃ e, keys.find? (fun e => e.1 % dcShift = mainDc % dcShift) = some e := by
  obtain ⟨before, after, rfl, -⟩ := List.lookup_eq_some_iff.mp h
  refine Option.isSome_iff_exists.mp (List.find?_isSome.mpr ⟨(mainDc % dcShift, key), by simp, ?_⟩)
  exact decide_eq_true (Int.emod_emod_of_dvd _ (dvd_refl dcShift))

end Sessions

/-- The session of a decoded account uses the main key if and only if the first current entry with the
bare id of the main data centre has the key of the entry with the id itself, or the current list has
no such entry and there are no keys at all. -/
theorem uses_main_key_iff (baseName : String) (accounts : List SelfSerialized) (i : ℕ)
    (userId mainDc : ℤ)
    (keys destroyed : List (ℤ × List UInt8)) (acct : SelfSerialized) (huser : FitsSigned 4 userId)
    (hdc : FitsSigned 4 mainDc) (hkeys : ∀ e ∈ keys, KeyFits e) (hdestroyed : ∀ e ∈ destroyed, KeyFits e)
    (hlength : keys.length < 2 ^ 31) (hlength' : destroyed.length < 2 ^ 31)
    (hparsed : parseSelfSerialized (IdLayout.legacy.encode userId mainDc keys destroyed) = .ok acct)
    (hacct : accounts[i]? = some acct) :
    UsesMainKey mainDc keys (sessionsOf (convertTdata baseName accounts) baseName i userId) ↔
      (∀ key, keys.lookup (mainDc % dcShift) = some key →
        ∀ e, keys.find? (fun e => e.1 % dcShift = mainDc % dcShift) = some e → e.2 = key) ∧
      (keys.lookup (mainDc % dcShift) = none → keys = [] ∧ destroyed = []) := by
  rw [parse_legacy huser hdc hkeys hdestroyed hlength hlength'] at hparsed
  obtain rfl := Except.ok.inj hparsed
  have hall : ∀ e ∈ keys ++ destroyed, KeyFits e := List.forall_mem_append.mpr ⟨hkeys, hdestroyed⟩
  have hsessions := @sessionsOf_convertTdata _ baseName accounts i hacct
  dsimp only at hsessions
  rw [hsessions]
  refine usesMainKey_convertAccount.trans ?_
  dsimp only
  rw [authKey_merged hall]
  cases hmain : keys.lookup (mainDc % dcShift) with
  | some key =>
    obtain ⟨e, he⟩ := exists_find?_of_lookup hmain
    rw [List.find?_append, he]
    simp
  | none =>
    simp only [reduceCtorEq, false_implies, implies_true, true_and, true_implies, Option.map_eq_none_iff,
      Option.or_eq_none_iff, List.head?_eq_none_iff, List.append_eq_nil_iff]
    constructor
    · exact fun h => h.2
    · rintro ⟨rfl, rfl⟩
      exact ⟨rfl, rfl, rfl⟩

/-- The session of an account with a key of its own data centre uses it. -/
theorem threeKeys_use_main_key : UsesMainKey 4 threeKeys (sessionsOf (convertTdata "tdata"
    [⟨777123456, 4, threeKeys⟩]) "tdata" 0 777123456) := by
  refine (uses_main_key_iff "tdata" _ 0 777123456 4 threeKeys [] _ (by decide) (by decide)
    (by decide +kernel)
    (by simp) (by decide) (by decide) (by decide +kernel) rfl).mpr ⟨?_, ?_⟩
  · intro key hkey e he
    have hlookup : threeKeys.lookup (4 % dcShift) = some (List.replicate localKeySize 97) := by
      decide +kernel
    have hfind : threeKeys.find? (fun e => e.1 % dcShift = 4 % dcShift) =
        some (4, List.replicate localKeySize 97) := by decide +kernel
    rw [hlookup] at hkey
    rw [hfind] at he
    rw [← Option.some.inj hkey, ← Option.some.inj he]
  · intro hnone
    exact absurd hnone (by decide +kernel)

/-- A key of another data centre becomes the key of the main one. -/
theorem other_key_is_used : ¬ ∀ (baseName : String) (accounts : List SelfSerialized) (i : ℕ)
    (userId mainDc : ℤ) (keys destroyed : List (ℤ × List UInt8)) (acct : SelfSerialized),
      FitsSigned 4 userId →
      FitsSigned 4 mainDc → (∀ e ∈ keys, KeyFits e) → (∀ e ∈ destroyed, KeyFits e) →
      keys.length < 2 ^ 31 → destroyed.length < 2 ^ 31 →
      parseSelfSerialized (IdLayout.legacy.encode userId mainDc keys destroyed) = .ok acct →
      accounts[i]? = some acct →
        UsesMainKey mainDc keys (sessionsOf (convertTdata baseName accounts) baseName i userId) := by
  intro h
  have huses := h "tdata" [⟨1, 3, threeKeys⟩] 0 1 3 threeKeys [] ⟨1, 3, threeKeys⟩ (by decide)
    (by decide)
    (by decide +kernel) (by simp) (by decide) (by decide) (by decide +kernel) rfl
  revert huses
  unfold UsesMainKey
  decide +kernel

end TgPlatform
