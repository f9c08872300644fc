import TgPlatform.Import.Zip

/-! # Whose session an account gets

Two sessions of one stem share their row's files, and two sessions of one
Telegram identity both get an account, so that the commit fails. Where neither
happens, an import gives every identity its own session.
-/

namespace TgPlatform.SessionImport

/-! ## Names and tables -/

theorem sessionName_inj {a b : String} (h : sessionName a = sessionName b) : a = b := by
  have hlist := congrArg String.toList h
  simp only [sessionName, String.toList_append] at hlist
  exact String.toList_inj.mp (List.append_cancel_right hlist)

theorem metaName_inj {a b : String} (h : metaName a = metaName b) : a = b := by
  have hlist := congrArg String.toList h
  simp only [metaName, String.toList_append] at hlist
  exact String.toList_inj.mp (List.append_cancel_right hlist)

/-- The third character from the end tells them apart. -/
theorem sessionName_ne_metaName {a b : String} : sessionName a ≠ metaName b := by
  intro h
  have hlist := congrArg (fun s => (s.toList.reverse)[3]?) h
  simp only [sessionName, metaName, String.toList_append, List.reverse_append] at hlist
  rw [List.getElem?_append_left (by decide), List.getElem?_append_left (by decide)] at hlist
  revert hlist
  decide

namespace AccountTable

variable {t t' : AccountTable} {rows : List AccountRow}

theorem ext_rows (h : t.rows = t'.rows) : t = t' := by
  cases t
  cases t'
  cases h
  rfl

theorem insert_eq_some {row : AccountRow} : t.insert row = some t' ↔ t'.rows = t.rows ++ [row] := by
  unfold insert
  split
  · constructor
    · rintro ⟨⟩
      rfl
    · intro h
      exact congrArg some (ext_rows h.symm)
  · rename_i hclash
    refine ⟨nofun, fun h => absurd (fun a ha => ?_) hclash⟩
    have hunique := t'.unique
    rw [h, List.pairwise_append] at hunique
    exact hunique.2.2 a ha row (List.mem_singleton_self row)

theorem insertAll_eq_some : t.insertAll rows = some t' ↔ t'.rows = t.rows ++ rows := by
  unfold insertAll
  induction rows generalizing t with
  | nil =>
    simp only [List.foldlM_nil, List.append_nil]
    constructor
    · rintro ⟨⟩
      rfl
    · intro h
      exact congrArg some (ext_rows h.symm)
  | cons row rows ih =>
    rw [List.foldlM_cons]
    constructor
    · intro h
      obtain ⟨t₁, h₁, h⟩ := Option.bind_eq_some_iff.mp h
      rw [ih.mp h, insert_eq_some.mp h₁, List.append_assoc, List.singleton_append]
    · intro h
      have hunique : (t.rows ++ [row]).Pairwise fun a b => ¬ a.Clash b := by
        have hsub : (t.rows ++ [row]).Sublist t'.rows := by
          rw [h]
          exact List.Sublist.append_left (List.singleton_sublist.mpr List.mem_cons_self) _
        exact List.Pairwise.sublist hsub t'.unique
      refine Option.bind_eq_some_iff.mpr ⟨⟨_, hunique⟩, insert_eq_some.mpr rfl, ih.mpr ?_⟩
      rw [h, List.append_assoc, List.singleton_append]

theorem getByTgUser_eq_none {u : ℤ} :
    t.getByTgUser u = none ↔ ∀ a ∈ t.rows, ¬ (a.telegramUserId = some u ∧ a.deleted = 0) := by
  unfold getByTgUser
  rw [List.findIdx?_eq_none_iff]
  simp

theorem single (t : AccountTable) (u : ℤ) :
    (t.rows.filter fun a => a.telegramUserId = some u && a.deleted = 0).length ≤ 1 := by
  have hunique : (t.rows.filter fun a => a.telegramUserId = some u && a.deleted = 0).Pairwise
      fun a b => ¬ a.Clash b := List.Pairwise.sublist List.filter_sublist t.unique
  have hlive : ∀ a ∈ t.rows.filter fun a => a.telegramUserId = some u && a.deleted = 0,
      a.telegramUserId = some u ∧ a.deleted = 0 := by
    intro a ha
    simpa using (List.mem_filter.mp ha).2
  generalize (t.rows.filter fun a => a.telegramUserId = some u && a.deleted = 0) = l at hunique hlive
  match l with
  | [] | [_] => simp
  | a :: b :: l =>
    exfalso
    obtain ⟨hau, had⟩ := hlive a List.mem_cons_self
    obtain ⟨hbu, hbd⟩ := hlive b (by simp)
    exact List.rel_of_pairwise_cons hunique List.mem_cons_self
      ⟨by simp [hau], by rw [hau, hbu], by rw [had, hbd]⟩

end AccountTable

/-! ## The items of an import -/

abbrev Validated := ImportItem × ValidationResult

def validated (telegram : FilePath → Attempt) (items : List ImportItem) : List Validated :=
  items.map fun item => (item, validateItem telegram item)

/-- The status of the item's session is one that an account may have. -/
def Validated.admitted (x : Validated) : Bool := (statusByImportResult x.2.status).isSome

/-- The items that get an account: those of identities that the database does not show. -/
def created (accounts : AccountTable) (l : List Validated) : List Validated :=
  l.filter fun x => x.admitted && (existingOf accounts x.2).isNone

/-- The items that are to get an account: one of each identity that is not taken. -/
def expected (taken : ℤ → Bool) : List Validated → List Validated
  | [] => []
  | x :: l =>
    if x.admitted then
      match x.2.userId with
      | none => x :: expected taken l
      | some u => if taken u then expected taken l else x :: expected (fun v => v = u || taken v) l
    else expected taken l

/-- The item's identity has an account, or an earlier item of the package is to get it. -/
def Repeats (accounts : AccountTable) (l : List Validated) (i : ℕ) : Prop :=
  ∃ x u, l[i]? = some x ∧ x.admitted = true ∧ x.2.userId = some u ∧
    ((accounts.getByTgUser u).isSome ∨
      ∃ j < i, ∃ y, l[j]? = some y ∧ y.admitted = true ∧ y.2.userId = some u)

/-- The row of an account is about the identity of the item, and its files are those of the item. -/
structure Owns (pkg : Package) (batch : ImportBatch) (files : String → Option Bytes) (x : Validated)
    (row : AccountRow) : Prop where
  identity : row.telegramUserId = x.2.userId
  files : ∃ key, row.secretRef = some ⟨batch.uuid, sessionName key⟩ ∧
    (files (sessionName key)).isSome ∧ files (sessionName key) = pkg.bytes? x.1.sessionPath ∧
      files (metaName key) = x.1.metaPath.bind pkg.bytes?

structure ImportsSoundly (pkg : Package) (accounts : AccountTable) (batch : ImportBatch)
    (l : List Validated) (out : Imported) : Prop where
  own : ∃ rows, out.accounts.rows = accounts.rows ++ rows ∧
    List.Forall₂ (Owns pkg batch out.files) (expected (fun u => (accounts.getByTgUser u).isSome) l) rows
  single : ∀ u : ℤ,
    (out.accounts.rows.filter fun a => a.telegramUserId = some u && a.deleted = 0).length ≤ 1
  reported : ∀ i < l.length, ∃ e, out.detail[i]? = some e ∧
    (e.status = .duplicate ↔ Repeats accounts l i)

/-- The package keeps its sessions and their identities apart. -/
structure Distinguishes (pkg : Package) (accounts : AccountTable) (items : List ImportItem)
    (l : List Validated) : Prop where
  /-- The last item of a stem has the same files as each that gets an account. -/
  files : ∀ x ∈ created accounts l, ∀ z, itemByKey items x.1.key = some z →
    pkg.bytes? z.sessionPath = pkg.bytes? x.1.sessionPath ∧
      z.metaPath.bind pkg.bytes? = x.1.metaPath.bind pkg.bytes?
  /-- No two items of one identity get an account. -/
  identities : (created accounts l).Pairwise fun x y => x.2.userId = none ∨ x.2.userId ≠ y.2.userId
  /-- For an identity other than zero that is so anyway. -/
  free : ∀ x ∈ created accounts l, ∀ u, x.2.userId = some u → accounts.getByTgUser u = none

section Items

variable {accounts : AccountTable} {l : List Validated} {x : Validated} {taken : ℤ → Bool}

theorem exists_of_existingOf {r : ValidationResult} (h : (existingOf accounts r).isSome) :
    ∃ u, r.userId = some u ∧ (accounts.getByTgUser u).isSome := by
  obtain ⟨id, hid⟩ := Option.isSome_iff_exists.mp h
  obtain ⟨u, hu, hget⟩ := Option.bind_eq_some_iff.mp hid
  exact ⟨u, (Option.filter_eq_some_iff.mp hu).1, by simp [hget]⟩

/-- Where no identity is repeated, the items that get an account are those that are to get one. -/
theorem expected_eq_created
    (htaken : ∀ u, (accounts.getByTgUser u).isSome → taken u = true)
    (hpair : (created accounts l).Pairwise fun x y => x.2.userId = none ∨ x.2.userId ≠ y.2.userId)
    (hfree : ∀ x ∈ created accounts l, ∀ u, x.2.userId = some u → taken u = false) :
    expected taken l = created accounts l := by
  induction l generalizing taken with
  | nil => rfl
  | cons x l ih =>
    unfold expected created
    rw [List.filter_cons]
    by_cases hadm : x.admitted = true
    · rw [if_pos hadm, hadm, Bool.true_and]
      cases hu : x.2.userId with
      | none =>
        have hnone : existingOf accounts x.2 = none := by simp [existingOf, hu]
        have hcreated : created accounts (x :: l) = x :: created accounts l := by
          simp [created, hadm, hnone]
        rw [hcreated] at hpair hfree
        rw [if_pos (by simp [hnone])]
        exact congrArg _ (ih htaken (List.Pairwise.of_cons hpair)
          fun y hy => hfree y (List.mem_cons_of_mem x hy))
      | some u =>
        dsimp only
        cases hex : existingOf accounts x.2 with
        | some id =>
          have hlive : (accounts.getByTgUser u).isSome := by
            have hsome : (existingOf accounts x.2).isSome := by rw [hex]; rfl
            obtain ⟨v, hv, hlive⟩ := exists_of_existingOf hsome
            rw [hu] at hv
            cases hv
            exact hlive
          have hcreated : created accounts (x :: l) = created accounts l := by
            simp [created, hadm, hex]
          rw [hcreated] at hpair hfree
          rw [if_pos (htaken u hlive), if_neg (by simp)]
          exact ih htaken hpair hfree
        | none =>
          have hcreated : created accounts (x :: l) = x :: created accounts l := by
            simp [created, hadm, hex]
          rw [hcreated] at hpair hfree
          rw [if_neg (by simp [hfree x List.mem_cons_self u hu]), if_pos (by simp)]
          refine congrArg _ (ih (fun v hv => by simp [htaken v hv]) (List.Pairwise.of_cons hpair) ?_)
          intro y hy v hv
          have hne : v ≠ u := by
            rintro rfl
            rcases List.rel_of_pairwise_cons hpair hy with hnone | hne
            · rw [hu] at hnone
              cases hnone
            · exact hne (hu.trans hv.symm)
          simp [hne, hfree y (List.mem_cons_of_mem x hy) v hv]
    · rw [if_neg hadm, Bool.eq_false_iff.mpr hadm, Bool.false_and, if_neg (by simp)]
      have hcreated : created accounts (x :: l) = created accounts l := by
        simp [created, hadm]
      rw [hcreated] at hpair hfree
      exact ih htaken hpair hfree

end Items

/-! ## The loop over the manifest -/

def rowOf (batch : ImportBatch) (x : Validated) : AccountRow :=
  accountOf batch x.2 ((statusByImportResult x.2.status).getD "")

def reportOf (accounts : AccountTable) (x : Validated) : DetailEntry :=
  entryOf x.2 (if x.admitted then existingOf accounts x.2 else none)

def Copyable (pkg : Package) (z : ImportItem) : Prop :=
  (pkg.bytes? z.sessionPath).isSome ∧ ∀ p, z.metaPath = some p → (pkg.bytes? p).isSome

/-- The batch directory has the files of the last items of the given ones' stems. -/
structure Copied (pkg : Package) (items : List ImportItem) (done : List Validated)
    (files : String → Option Bytes) : Prop where
  copied : ∀ x ∈ done, ∃ z, itemByKey items x.1.key = some z ∧ Copyable pkg z ∧
    files (sessionName x.1.key) = pkg.bytes? z.sessionPath ∧
      files (metaName x.1.key) = z.metaPath.bind pkg.bytes?
  others : ∀ key, (∀ x ∈ done, x.1.key ≠ key) → files (metaName key) = none

section Loop

variable {pkg : Package} {accounts : AccountTable} {batch : ImportBatch} {items : List ImportItem}
  {done : List Validated} {files files' : String → Option Bytes} {x : Validated} {z : ImportItem}
  {s s' : ImportState}

def filesWith (pkg : Package) (files : String → Option Bytes) (key : String) (z : ImportItem) :
    String → Option Bytes :=
  match z.metaPath with
  | none => Function.update files (sessionName key) (pkg.bytes? z.sessionPath)
  | some p => Function.update (Function.update files (sessionName key) (pkg.bytes? z.sessionPath))
      (metaName key) (pkg.bytes? p)

theorem copyFiles_eq_some {r : ManifestRow} (hz : r.metaPath = z.metaPath) :
    copyFiles pkg files r z.sessionPath = some files' ↔
      Copyable pkg z ∧ files' = filesWith pkg files r.result.key z := by
  unfold copyFiles copy2 Copyable filesWith
  rw [hz]
  cases pkg.bytes? z.sessionPath with
  | none =>
    constructor
    · rintro ⟨⟩
    · rintro ⟨⟨⟨⟩, -⟩, -⟩
  | some bytes =>
    cases z.metaPath with
    | none =>
      constructor
      · rintro ⟨⟩
        exact ⟨⟨rfl, nofun⟩, rfl⟩
      · rintro ⟨-, rfl⟩
        rfl
    | some p =>
      cases hp : pkg.bytes? p with
      | none =>
        constructor
        · intro h
          simp [hp] at h
        · rintro ⟨⟨-, hall⟩, -⟩
          simp [hp] at hall
      | some bytes' =>
        constructor
        · intro h
          refine ⟨⟨rfl, fun q hq => ?_⟩, ?_⟩
          · cases hq
            simp [hp]
          · simpa [hp] using h.symm
        · rintro ⟨-, rfl⟩
          simp [hp]

section FilesWith

variable {key key' : String}

theorem filesWith_session : filesWith pkg files key z (sessionName key') =
    if key' = key then pkg.bytes? z.sessionPath else files (sessionName key') := by
  have hold : Function.update files (sessionName key) (pkg.bytes? z.sessionPath) (sessionName key') =
      if key' = key then pkg.bytes? z.sessionPath else files (sessionName key') := by
    by_cases hkey : key' = key
    · subst hkey
      rw [Function.update_self, if_pos rfl]
    · rw [Function.update_of_ne fun h => hkey (sessionName_inj h), if_neg hkey]
  unfold filesWith
  cases z.metaPath with
  | none => exact hold
  | some p => exact (Function.update_of_ne sessionName_ne_metaName ..).trans hold

theorem filesWith_meta_of_ne (hkey : key' ≠ key) :
    filesWith pkg files key z (metaName key') = files (metaName key') := by
  have hold : Function.update files (sessionName key) (pkg.bytes? z.sessionPath) (metaName key') =
      files (metaName key') := Function.update_of_ne sessionName_ne_metaName.symm ..
  unfold filesWith
  cases z.metaPath with
  | none => exact hold
  | some p => exact (Function.update_of_ne (fun h => hkey (metaName_inj h)) ..).trans hold

theorem filesWith_meta_self (hnone : z.metaPath = none → files (metaName key) = none) :
    filesWith pkg files key z (metaName key) = z.metaPath.bind pkg.bytes? := by
  unfold filesWith
  cases hp : z.metaPath with
  | none => exact (Function.update_of_ne sessionName_ne_metaName.symm ..).trans (hnone hp)
  | some p => exact Function.update_self ..

end FilesWith

theorem Copied.snoc (h : Copied pkg items done files) (hz : itemByKey items x.1.key = some z)
    (hcopyable : Copyable pkg z) : Copied pkg items (done ++ [x]) (filesWith pkg files x.1.key z) := by
  have hown : filesWith pkg files x.1.key z (metaName x.1.key) = z.metaPath.bind pkg.bytes? := by
    apply filesWith_meta_self
    intro hp
    by_cases hbefore : ∃ y ∈ done, y.1.key = x.1.key
    · obtain ⟨y, hy, hkey⟩ := hbefore
      obtain ⟨z', hz', -, -, hmeta'⟩ := h.copied y hy
      rw [hkey, hz] at hz'
      cases hz'
      rw [← hkey, hmeta', hp]
      rfl
    · exact h.others _ fun y hy hkey => hbefore ⟨y, hy, hkey⟩
  constructor
  · intro y hy
    by_cases hkey : y.1.key = x.1.key
    · rw [hkey]
      exact ⟨z, hz, hcopyable, by rw [filesWith_session, if_pos rfl], hown⟩
    · rcases List.mem_append.mp hy with hy | hy
      · obtain ⟨z', hz', hcopyable', hsession', hmeta'⟩ := h.copied y hy
        exact ⟨z', hz', hcopyable', by rw [filesWith_session, if_neg hkey, hsession'],
          by rw [filesWith_meta_of_ne hkey, hmeta']⟩
      · exact absurd (congrArg (fun x => x.1.key) (List.mem_singleton.mp hy)) hkey
  · intro key hkeys
    have hkey : key ≠ x.1.key := fun h => hkeys x (by simp) h.symm
    rw [filesWith_meta_of_ne hkey]
    exact h.others key fun y hy => hkeys y (List.mem_append_left _ hy)

def Listed (items : List ImportItem) (x : Validated) : Prop := x.1 ∈ items ∧ x.2.key = x.1.key

theorem importRow_of_created (hx : Listed items x) (hz : itemByKey items x.1.key = some z)
    (hcreated : (x.admitted && (existingOf accounts x.2).isNone) = true) :
    importRow pkg accounts batch s (resultDict items x.2) = some s' ↔ Copyable pkg z ∧
      s' = ⟨filesWith pkg s.files x.1.key z, s.added ++ [rowOf batch x],
        s.detail ++ [reportOf accounts x]⟩ := by
  obtain ⟨hadm, hex⟩ := Bool.and_eq_true_iff.mp hcreated
  obtain ⟨observedStatus, hstatus⟩ := Option.isSome_iff_exists.mp hadm
  have hrow : rowOf batch x = accountOf batch x.2 observedStatus := by simp [rowOf, hstatus]
  have hreport : reportOf accounts x = entryOf x.2 none := by
    simp [reportOf, hadm, Option.isNone_iff_eq_none.mp hex]
  have hsession : (resultDict items x.2).sessionPath = some z.sessionPath := by
    simp [resultDict, hx.2, hz]
  have hmeta : (resultDict items x.2).metaPath = z.metaPath := by simp [resultDict, hx.2, hz]
  unfold importRow
  rw [show (resultDict items x.2).result = x.2 from rfl, hstatus, hsession]
  dsimp only
  rw [Option.isNone_iff_eq_none.mp hex, hrow, hreport]
  dsimp only
  rw [Option.map_eq_some_iff]
  constructor
  · rintro ⟨files, hfiles, rfl⟩
    obtain ⟨hcopyable, rfl⟩ := (copyFiles_eq_some hmeta).mp hfiles
    rw [show (resultDict items x.2).result.key = x.1.key from hx.2]
    exact ⟨hcopyable, rfl⟩
  · rintro ⟨hcopyable, rfl⟩
    refine ⟨_, (copyFiles_eq_some hmeta).mpr ⟨hcopyable, rfl⟩, ?_⟩
    rw [show (resultDict items x.2).result.key = x.1.key from hx.2]

theorem importRow_of_not_created (hz : itemByKey items x.2.key = some z)
    (hcreated : (x.admitted && (existingOf accounts x.2).isNone) = false) :
    importRow pkg accounts batch s (resultDict items x.2) =
      some { s with detail := s.detail ++ [reportOf accounts x] } := by
  have hsession : (resultDict items x.2).sessionPath = some z.sessionPath := by simp [resultDict, hz]
  unfold importRow reportOf
  rw [show (resultDict items x.2).result = x.2 from rfl, hsession]
  cases hstatus : statusByImportResult x.2.status with
  | none =>
    have hadm : x.admitted = false := by simp [Validated.admitted, hstatus]
    simp [hadm]
  | some observedStatus =>
    have hadm : x.admitted = true := by simp [Validated.admitted, hstatus]
    rw [hadm, Bool.true_and] at hcreated
    obtain ⟨id, hid⟩ := Option.isSome_iff_exists.mp (by simpa using hcreated)
    simp [hid, hadm]

theorem foldlM_importRow {l : List Validated} (hl : ∀ x ∈ l, Listed items x)
    (h : (l.map fun x => resultDict items x.2).foldlM (importRow pkg accounts batch) s = some s')
    (hcopied : Copied pkg items done s.files) :
    Copied pkg items (done ++ created accounts l) s'.files ∧
      s'.added = s.added ++ (created accounts l).map (rowOf batch) ∧
        s'.detail = s.detail ++ l.map (reportOf accounts) := by
  induction l generalizing s done with
  | nil =>
    cases h
    simpa [created] using hcopied
  | cons x l ih =>
    rw [List.map_cons, List.foldlM_cons] at h
    obtain ⟨s₁, h₁, h⟩ := Option.bind_eq_some_iff.mp h
    have hx := hl x List.mem_cons_self
    obtain ⟨z, hz⟩ := Option.isSome_iff_exists.mp (itemByKey_isSome hx.1)
    have hrest : ∀ y ∈ l, Listed items y := fun y hy => hl y (List.mem_cons_of_mem x hy)
    cases hcreated : x.admitted && (existingOf accounts x.2).isNone with
    | true =>
      have hcons : created accounts (x :: l) = x :: created accounts l := by
        unfold created
        rw [List.filter_cons, if_pos hcreated]
      obtain ⟨hcopyable, rfl⟩ := (importRow_of_created hx hz hcreated).mp h₁
      obtain ⟨hfiles, hadded, hdetail⟩ := ih hrest h (hcopied.snoc hz hcopyable)
      rw [hcons]
      exact ⟨by simpa using hfiles, by simpa using hadded, by simpa using hdetail⟩
    | false =>
      have hcons : created accounts (x :: l) = created accounts l := by
        unfold created
        rw [List.filter_cons, if_neg (by simp [hcreated])]
      rw [importRow_of_not_created (hx.2 ▸ hz) hcreated] at h₁
      cases h₁
      obtain ⟨hfiles, hadded, hdetail⟩ := ih hrest h hcopied
      rw [hcons]
      exact ⟨hfiles, hadded, by simpa using hdetail⟩

theorem exists_foldlM_importRow {l : List Validated} (hl : ∀ x ∈ l, Listed items x)
    (hcopyable : ∀ x ∈ created accounts l, ∀ z, itemByKey items x.1.key = some z → Copyable pkg z) :
    ∃ s', (l.map fun x => resultDict items x.2).foldlM (importRow pkg accounts batch) s = some s' := by
  induction l generalizing s with
  | nil => exact ⟨s, rfl⟩
  | cons x l ih =>
    have hx := hl x List.mem_cons_self
    obtain ⟨z, hz⟩ := Option.isSome_iff_exists.mp (itemByKey_isSome hx.1)
    have hrest : ∀ y ∈ l, Listed items y := fun y hy => hl y (List.mem_cons_of_mem x hy)
    have hsub : ∀ y ∈ created accounts l, y ∈ created accounts (x :: l) := by
      intro y hy
      exact (List.Sublist.filter _ (List.sublist_cons_self x l)).subset hy
    have hstep : ∃ s₁, importRow pkg accounts batch s (resultDict items x.2) = some s₁ := by
      cases hcreated : x.admitted && (existingOf accounts x.2).isNone with
      | true =>
        have hmem : x ∈ created accounts (x :: l) := List.mem_filter.mpr ⟨List.mem_cons_self, hcreated⟩
        exact ⟨_, (importRow_of_created hx hz hcreated).mpr ⟨hcopyable x hmem z hz, rfl⟩⟩
      | false => exact ⟨_, importRow_of_not_created (hx.2 ▸ hz) hcreated⟩
    obtain ⟨s₁, h₁⟩ := hstep
    obtain ⟨s', hs'⟩ := @ih s₁ hrest fun y hy => hcopyable y (hsub y hy)
    refine ⟨s', ?_⟩
    rw [List.map_cons, List.foldlM_cons, h₁]
    exact hs'

end Loop

/-! ## The whole import -/

section Whole

variable {py : Python} {telegram : FilePath → Attempt} {pkg : Package} {accounts : AccountTable}
  {batch : ImportBatch} {items : List ImportItem} {x : Validated} {out : Imported}

theorem listed_of_mem (hx : x ∈ validated telegram items) : Listed items x := by
  obtain ⟨item, hitem, rfl⟩ := List.mem_map.mp hx
  exact ⟨hitem, key_validateItem⟩

theorem files_of_admitted (hitems : parseDirectory py pkg = some items)
    (hx : x ∈ validated telegram items)
    (hadm : x.admitted = true) :
    (pkg.bytes? x.1.sessionPath).isSome ∧ (x.1.metaPath.bind pkg.bytes?).isSome := by
  obtain ⟨item, hitem, rfl⟩ := List.mem_map.mp hx
  obtain ⟨path, hpath⟩ := exists_importItem hitems hitem
  have hvalid : item.fmt = .sqlite ∧ item.metadata ≠ [] := by
    unfold Validated.admitted validateItem at hadm
    dsimp only at hadm
    split_ifs at hadm with hfmt hmeta
    · cases hadm
    · cases hadm
    · cases hadm
    · exact ⟨by simpa using hfmt, by simpa using hmeta⟩
  constructor
  · exact bytes_of_sqlite hpath hvalid.1
  · obtain ⟨p, bytes, hp, hbytes⟩ := metaPath_of_metadata hpath hvalid.2
    simp [hp, hbytes]

theorem Distinguishes.copyable (h : Distinguishes pkg accounts items (validated telegram items))
    (hitems : parseDirectory py pkg = some items) :
    ∀ x ∈ created accounts (validated telegram items), ∀ z, itemByKey items x.1.key = some z →
      Copyable pkg z := by
  intro x hx z hz
  obtain ⟨hmem, hcreated⟩ := List.mem_filter.mp hx
  obtain ⟨hsession, hmeta⟩ := files_of_admitted hitems hmem (Bool.and_eq_true_iff.mp hcreated).1
  obtain ⟨hsession', hmeta'⟩ := h.files x hx z hz
  constructor
  · rw [hsession']
    exact hsession
  · intro p hp
    rw [← hmeta', hp] at hmeta
    exact hmeta

theorem manifest_eq_map :
    manifest telegram items = (validated telegram items).map fun x => resultDict items x.2 := by
  simp [manifest, validated]

theorem importZip_eq_some (h : importZip pkg accounts batch (manifest telegram items) = some out) :
    Copied pkg items (created accounts (validated telegram items)) out.files ∧
      out.accounts.rows = accounts.rows ++
        (created accounts (validated telegram items)).map (rowOf batch) ∧
      out.detail = (validated telegram items).map (reportOf accounts) := by
  unfold importZip at h
  rw [manifest_eq_map] at h
  obtain ⟨s, hs, h⟩ := Option.bind_eq_some_iff.mp h
  obtain ⟨accounts', haccounts, h⟩ := Option.bind_eq_some_iff.mp h
  cases h
  have hstart : Copied pkg items [] ImportState.start.files := ⟨by simp, fun _ _ => rfl⟩
  obtain ⟨hfiles, hadded, hdetail⟩ := foldlM_importRow (fun x hx => listed_of_mem hx) hs hstart
  rw [AccountTable.insertAll_eq_some, hadded] at haccounts
  exact ⟨by simpa using hfiles, haccounts, by simpa [ImportState.start] using hdetail⟩

theorem clash_rowOf {y : Validated} : (rowOf batch x).Clash (rowOf batch y) ↔
    x.2.userId.isSome ∧ x.2.userId = y.2.userId := by
  unfold AccountRow.Clash rowOf accountOf
  simp

theorem not_clash_rowOf {a : AccountRow} : ¬ a.Clash (rowOf batch x) ↔
    ∀ u, x.2.userId = some u → ¬ (a.telegramUserId = some u ∧ a.deleted = 0) := by
  unfold AccountRow.Clash rowOf accountOf
  constructor
  · rintro hclash u hu ⟨ha, hdeleted⟩
    exact hclash ⟨by simp [ha], ha.trans hu.symm, hdeleted⟩
  · rintro hfree ⟨hsome, heq, hdeleted⟩
    obtain ⟨u, hu⟩ := Option.isSome_iff_exists.mp hsome
    exact hfree u (heq.symm.trans hu) ⟨hu, hdeleted⟩

variable {l : List Validated}

theorem fits_iff :
    (∃ t : AccountTable, t.rows = accounts.rows ++ (created accounts l).map (rowOf batch)) ↔
    ((created accounts l).Pairwise fun x y => x.2.userId = none ∨ x.2.userId ≠ y.2.userId) ∧
      ∀ x ∈ created accounts l, ∀ u, x.2.userId = some u → accounts.getByTgUser u = none := by
  have hpair : ((created accounts l).map (rowOf batch)).Pairwise (fun a b => ¬ a.Clash b) ↔
      (created accounts l).Pairwise fun x y => x.2.userId = none ∨ x.2.userId ≠ y.2.userId := by
    rw [List.pairwise_map]
    apply List.Pairwise.iff
    intro x y
    rw [clash_rowOf]
    cases x.2.userId <;> simp
  have hfree : (∀ a ∈ accounts.rows, ∀ b ∈ (created accounts l).map (rowOf batch), ¬ a.Clash b) ↔
      ∀ x ∈ created accounts l, ∀ u, x.2.userId = some u → accounts.getByTgUser u = none := by
    constructor
    · intro h x hx u hu
      rw [AccountTable.getByTgUser_eq_none]
      intro a ha
      exact not_clash_rowOf.mp (h a ha _ (List.mem_map_of_mem hx)) u hu
    · intro h a ha b hb
      obtain ⟨x, hx, rfl⟩ := List.mem_map.mp hb
      apply not_clash_rowOf.mpr
      intro u hu
      exact AccountTable.getByTgUser_eq_none.mp (h x hx u hu) a ha
  rw [← hpair, ← hfree]
  constructor
  · rintro ⟨t, ht⟩
    have hunique := t.unique
    rw [ht, List.pairwise_append] at hunique
    exact hunique.2
  · rintro ⟨hnew, hcross⟩
    exact ⟨⟨_, List.pairwise_append.mpr ⟨accounts.unique, hnew, hcross⟩⟩, rfl⟩

theorem ImportsSoundly.distinguishes
    (hout : importZip pkg accounts batch (manifest telegram items) = some out)
    (h : ImportsSoundly pkg accounts batch (validated telegram items) out) :
    Distinguishes pkg accounts items (validated telegram items) := by
  obtain ⟨hcopied, hrows, -⟩ := importZip_eq_some hout
  obtain ⟨hpair, hfree⟩ := fits_iff.mp ⟨out.accounts, hrows⟩
  obtain ⟨rows, hrows', howns⟩ := h.own
  obtain rfl : (created accounts (validated telegram items)).map (rowOf batch) = rows :=
    List.append_cancel_left (hrows.symm.trans hrows')
  have hexpected : expected (fun u => (accounts.getByTgUser u).isSome) (validated telegram items) =
      created accounts (validated telegram items) :=
    expected_eq_created (fun _ hu => hu) hpair fun x hx u hu => by simp [hfree x hx u hu]
  rw [hexpected, List.forall₂_map_right_iff, List.forall₂_same] at howns
  refine ⟨?_, hpair, hfree⟩
  intro x hx z hz
  obtain ⟨key, href, -, hsession, hmeta⟩ := (howns x hx).files
  obtain ⟨z', hz', -, hsession', hmeta'⟩ := hcopied.copied x hx
  obtain rfl : z = z' := Option.some.inj (hz.symm.trans hz')
  have hkey : x.1.key = key := by
    have hname : sessionName x.2.key = sessionName key :=
      congrArg SecretRef.name (Option.some.inj href)
    exact (listed_of_mem (List.mem_filter.mp hx).1).2.symm.trans (sessionName_inj hname)
  rw [← hkey] at hsession hmeta
  exact ⟨hsession'.symm.trans hsession, hmeta'.symm.trans hmeta⟩

/-- Where identities are apart, the reported duplicates are the repetitions. -/
theorem duplicate_iff (hpair : (created accounts l).Pairwise fun x y =>
      x.2.userId = none ∨ x.2.userId ≠ y.2.userId)
    (hfree : ∀ x ∈ created accounts l, ∀ u, x.2.userId = some u → accounts.getByTgUser u = none)
    {i : ℕ} (hi : l[i]? = some x) :
    (reportOf accounts x).status = .duplicate ↔ Repeats accounts l i := by
  have hstatus : (reportOf accounts x).status = .duplicate ↔
      x.admitted = true ∧ (existingOf accounts x.2).isSome := by
    unfold reportOf entryOf
    cases x.admitted <;> simp [Option.isSome_iff_ne_none]
  rw [hstatus]
  constructor
  · rintro ⟨hadm, hex⟩
    obtain ⟨u, hu, hlive⟩ := exists_of_existingOf hex
    exact ⟨x, u, hi, hadm, hu, .inl hlive⟩
  · rintro ⟨x', u, hx', hadm, hu, htaken⟩
    obtain rfl : x = x' := Option.some.inj (hi.symm.trans hx')
    clear hx'
    refine ⟨hadm, ?_⟩
    by_contra hnone
    have hgets : (x.admitted && (existingOf accounts x.2).isNone) = true := by simpa [hadm] using hnone
    rcases htaken with hlive | ⟨j, hj, y, hy, hadm', hu'⟩
    · rw [hfree x (List.mem_filter.mpr ⟨List.mem_of_getElem? hi, hgets⟩) u hu] at hlive
      cases hlive
    · clear hstatus
      have hgets' : (y.admitted && (existingOf accounts y.2).isNone) = true := by
        have hsame : existingOf accounts y.2 = existingOf accounts x.2 := by
          unfold existingOf
          rw [hu, hu']
        rw [hsame, hadm', Bool.true_and]
        exact (Bool.and_eq_true_iff.mp hgets).2
      obtain ⟨hilt, rfl⟩ := List.getElem?_eq_some_iff.mp hi
      obtain ⟨hjlt, rfl⟩ := List.getElem?_eq_some_iff.mp hy
      unfold created at hpair
      rw [List.pairwise_filter, List.pairwise_iff_getElem] at hpair
      rcases hpair j i hjlt hilt hj hgets' hgets with hnone' | hne
      · rw [hu'] at hnone'
        cases hnone'
      · exact hne (hu'.trans hu.symm)

theorem Distinguishes.importsSoundly (h : Distinguishes pkg accounts items (validated telegram items))
    (hitems : parseDirectory py pkg = some items) :
    ∃ out, importZip pkg accounts batch (manifest telegram items) = some out ∧
      ImportsSoundly pkg accounts batch (validated telegram items) out := by
  have hcompletes : ∃ out, importZip pkg accounts batch (manifest telegram items) = some out := by
    obtain ⟨s, hs⟩ : ∃ s, ((validated telegram items).map fun x => resultDict items x.2).foldlM
        (importRow pkg accounts batch) .start = some s :=
      exists_foldlM_importRow (fun x hx => listed_of_mem hx) (h.copyable hitems)
    have hstart : Copied pkg items [] ImportState.start.files := ⟨by simp, fun _ _ => rfl⟩
    obtain ⟨-, hadded, -⟩ := foldlM_importRow (fun x hx => listed_of_mem hx) hs hstart
    obtain ⟨t, ht⟩ : ∃ t : AccountTable, t.rows =
        accounts.rows ++ (created accounts (validated telegram items)).map (rowOf batch) :=
      fits_iff.mpr ⟨h.identities, h.free⟩
    have hinsert : accounts.insertAll s.added = some t := by
      rw [AccountTable.insertAll_eq_some, ht, hadded]
      rfl
    unfold importZip
    rw [manifest_eq_map, hs]
    simp [hinsert]
  obtain ⟨out, hout⟩ := hcompletes
  obtain ⟨hcopied, hrows, hdetail⟩ := importZip_eq_some hout
  have hexpected : expected (fun u => (accounts.getByTgUser u).isSome) (validated telegram items) =
      created accounts (validated telegram items) :=
    expected_eq_created (fun _ hu => hu) h.identities fun x hx u hu => by simp [h.free x hx u hu]
  refine ⟨out, hout, ⟨_, hrows, ?_⟩, out.accounts.single, ?_⟩
  · rw [hexpected, List.forall₂_map_right_iff, List.forall₂_same]
    intro x hx
    obtain ⟨z, hz, hcopyable, hsession, hmeta⟩ := hcopied.copied x hx
    obtain ⟨hsession', hmeta'⟩ := h.files x hx z hz
    have hkey : x.2.key = x.1.key := (listed_of_mem (List.mem_filter.mp hx).1).2
    refine ⟨rfl, x.1.key, ?_, ?_, hsession.trans hsession', hmeta.trans hmeta'⟩
    · rw [← hkey]
      rfl
    · rw [hsession]
      exact hcopyable.1
  · intro i hi
    obtain ⟨x, hx⟩ : ∃ x, (validated telegram items)[i]? = some x :=
      ⟨_, List.getElem?_eq_getElem hi⟩
    refine ⟨reportOf accounts x, ?_, duplicate_iff h.identities h.free hx⟩
    rw [hdetail, List.getElem?_map, hx]
    rfl

end Whole

/-- An import of a parsed package comes to its end and gives every identity its own session if and
only if the package keeps the sessions and the identities of its accounts apart. -/
theorem import_gives_own_sessions_iff (py : Python) (telegram : FilePath → Attempt) (pkg : Package)
    (accounts : AccountTable) (batch : ImportBatch) :
    (∀ items, parseDirectory py pkg = some items →
      ∃ out, importZip pkg accounts batch (manifest telegram items) = some out ∧
        ImportsSoundly pkg accounts batch (validated telegram items) out) ↔
    ∀ items, parseDirectory py pkg = some items →
      Distinguishes pkg accounts items (validated telegram items) := by
  constructor
  · intro h items hitems
    obtain ⟨out, hout, hsound⟩ := h items hitems
    exact hsound.distinguishes hout
  · intro h items hitems
    exact (h items hitems).importsSoundly hitems

/-! ## Two sessions of one stem -/

def metadataBytes : Bytes := encode "\x7b\"app_id\": 1, \"app_hash\": \"h\"\x7d"

/-- The files of two sessions, each in a directory of its own under the same names. -/
def twoSessions : Package where
  entries := [
    (["a", "x.session"], .file (sqliteMagic ++ [1])), (["a", "x.json"], .file metadataBytes),
    (["b", "x.session"], .file (sqliteMagic ++ [2])), (["b", "x.json"], .file metadataBytes)]
  nodup := by decide

def completeMetadata : Python where
  sha256 _ := ""
  hmacSha256 _ _ := ""
  loads bytes :=
    if bytes = metadataBytes then .ok (.dict [("app_id", .int 1), ("app_hash", .str "h")])
    else .error .decode
  parseInt _ := none
  parseFloat _ := none
  repr _ := ""
  environ _ := none
  isDigit _ := false

/-- The session in `a` is identity 11's, the one in `b` identity 12's. -/
def twoIdentities (path : FilePath) : Attempt :=
  .authorized (if path = ["a", "x.session"] then 11 else 12) none

/-- Identity 11's account gets the session of identity 12. -/
theorem same_stem_swaps_session : ¬ ∀ (py : Python) (telegram : FilePath → Attempt) (pkg : Package)
    (accounts : AccountTable) (batch : ImportBatch) (items : List ImportItem),
    parseDirectory py pkg = some items →
      ∃ out, importZip pkg accounts batch (manifest telegram items) = some out ∧
        ImportsSoundly pkg accounts batch (validated telegram items) out := by
  intro h
  have hobserved : (parseDirectory completeMetadata twoSessions).map (fun items =>
      (created .empty (validated twoIdentities items)).all fun x =>
        (itemByKey items x.1.key).all fun z =>
        twoSessions.bytes? z.sessionPath = twoSessions.bytes? x.1.sessionPath) = some false := by
    decide +kernel
  obtain ⟨items, hitems, hdiffer⟩ := Option.map_eq_some_iff.mp hobserved
  obtain ⟨out, hout, hsound⟩ := h _ twoIdentities _ .empty ⟨1, "u", 1, 1⟩ items hitems
  have hsame := (hsound.distinguishes hout).files
  apply Bool.eq_false_iff.mp hdiffer
  rw [List.all_eq_true]
  intro x hx
  cases hz : itemByKey items x.1.key with
  | none => rfl
  | some z => simpa using (hsame x hx z hz).1

end TgPlatform.SessionImport
