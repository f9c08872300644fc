import TgPlatform.Mirror.Keywords

/-! # Hiding links

Links and mentions are hidden in two passes: first the entities that are links or
mentions, each at the place to which those before it have moved it, then the links
that are still found in the text. The other entities are moved along.
-/

namespace TgPlatform.Mirror

open Rewriting

/-- `UrlMessageFilter`. The matcher is given by what it says of a text and of a link, and by the
places where it finds links in a text. -/
structure UrlFilter where
  placeholder : Text
  matchesText : Text → Bool
  matchesUrl : String → Bool
  search : Text → List (ℕ × ℕ)
  ordered : ∀ w, Ordered 0 (search w) w.length
  filterMention : Bool ⊕ List Text
  filterByIdMention : Bool

namespace UrlFilter

variable (f : UrlFilter)

/-- `_match_mention`. -/
def matchMention (mention : Text) : Bool :=
  match f.filterMention with
  | .inl b => b
  | .inr blacklist => blacklist.isEmpty || blacklist.contains mention

def hits (w : Text) (e : MessageEntity) : Bool :=
  match e.kind with
  | .url => f.matchesText (pySlice w e.offset (e.offset + e.length))
  | .mention | .textUrl _ => f.matchMention (pySlice w e.offset (e.offset + e.length))
  | _ => false

def drops (e : MessageEntity) : Bool :=
  match e.kind with
  | .mentionName => f.filterByIdMention
  | .textUrl url => f.matchesUrl url
  | _ => false

structure Hiding where
  text : Text
  entities : List MessageEntity
  kept : List ℕ

def hide (st : Hiding) (i : ℕ) : Hiding :=
  match st.entities[i]? with
  | none => st
  | some e =>
    if f.hits st.text e then
      { st with
        text := replaceAt st.text e.offset (e.offset + e.length) f.placeholder
        entities := updateEntitiesParams st.entities e.offset (e.offset + e.length)
          (f.placeholder.length - e.length) }
    else if f.drops e then st
    else { st with kept := st.kept ++ [i] }

def hideEntities (m : EventMessage) : Hiding :=
  (List.range m.entities.length).foldl f.hide ⟨m.message, m.entities, []⟩

/-- `filtered_entities`. -/
def Hiding.survivors (st : Hiding) : List MessageEntity := st.kept.filterMap fun i => st.entities[i]?

def edit (span : ℕ × ℕ) : Edit := ⟨span.1, span.2, f.placeholder, f.placeholder.length⟩

def hideFound (w : Text) (l : List MessageEntity) : Text × List MessageEntity :=
  let st := (f.search w).foldl (fun (st : Text × List MessageEntity × ℤ) span =>
    let start := (span.1 : ℤ) + st.2.2
    let stop := (span.2 : ℤ) + st.2.2
    let diff := (f.placeholder.length : ℤ) - ((span.2 : ℤ) - span.1)
    (replaceAt st.1 start stop f.placeholder, updateEntitiesParams st.2.1 start stop diff, st.2.2 + diff))
    (w, l, 0)
  (st.1, st.2.1)

def hidePreview : Option Media → Option Media
  | some (.webPage (some url)) => if f.matchesUrl url then none else some (.webPage (some url))
  | media => media

/-- `_process_message`. -/
def filter : MessageFilter := .ofMessage fun m _ =>
  let st := f.hideEntities m
  let found := f.hideFound st.text st.survivors
  (delSurrogate found.1).map fun text =>
    (.continue_, { m with message := text, entities := found.2, media := f.hidePreview m.media })

/-- What is replaced by the placeholder: the text of an entity that is hidden, or a link that is found
in the text that is left by then. -/
def Hidden (m : EventMessage) (u v : Text) : Prop :=
  v = f.placeholder ∧
    ((∃ e ∈ m.entities, f.hits m.message e = true ∧
        u = pySlice m.message e.offset (e.offset + e.length)) ∨
      ∃ span ∈ f.search (f.hideEntities m).text, u = piece (f.hideEntities m).text span.1 span.2)

/-! ## The second pass -/

variable {f} {w w₀ : Text} {l l₀ : List MessageEntity}

/-- Replacing the pieces one after the other where they stand by then is substituting them. -/
theorem foldl_hideFound {spans : List (ℕ × ℕ)} {k : ℕ} {d : Text} {error : ℤ}
    (hspans : Ordered k spans w.length) (hd : (d.length : ℤ) = k + error) :
    let st := spans.foldl (fun (st : Text × List MessageEntity × ℤ) span =>
      let start := (span.1 : ℤ) + st.2.2
      let stop := (span.2 : ℤ) + st.2.2
      let diff := (f.placeholder.length : ℤ) - ((span.2 : ℤ) - span.1)
      (replaceAt st.1 start stop f.placeholder, updateEntitiesParams st.2.1 start stop diff, st.2.2 + diff))
      (d ++ w.drop k, l, error)
    st.1 = d ++ substitute w k (spans.map f.edit) ∧ st.2.1 = (moveOver (spans.map f.edit) l error).1 := by
  induction spans generalizing k d error l with
  | nil => exact ⟨rfl, rfl⟩
  | cons span spans ih =>
    obtain ⟨hk, hx, hrest⟩ := hspans
    have hn := hrest.le
    have hstart : (span.1 : ℤ) + error = ((d.length + (span.1 - k) : ℕ) : ℤ) := by omega
    have hstop : (span.2 : ℤ) + error = ((d.length + (span.2 - k) : ℕ) : ℤ) := by omega
    have hle : d.length + (span.1 - k) ≤ d.length + (span.2 - k) := by omega
    have hlen : d.length + (span.2 - k) ≤ (d ++ w.drop k).length := by
      rw [List.length_append, List.length_drop]
      omega
    have htext : replaceAt (d ++ w.drop k) (span.1 + error) (span.2 + error) f.placeholder =
        d ++ piece w k span.1 ++ f.placeholder ++ w.drop span.2 := by
      rw [hstart, hstop, replaceAt_natCast hle hlen, splice_append_drop hk hx]
    have hlength : ((d ++ piece w k span.1 ++ f.placeholder).length : ℤ) =
        span.2 + (error + ((f.placeholder.length : ℤ) - ((span.2 : ℤ) - span.1))) := by
      rw [List.length_append, List.length_append, length_piece hk (by omega)]
      omega
    have hih := ih (l := updateEntitiesParams l (span.1 + error) (span.2 + error)
      (f.placeholder.length - ((span.2 : ℤ) - span.1))) hrest hlength
    simp only [List.foldl_cons, htext]
    refine ⟨hih.1.trans ?_, hih.2⟩
    simp only [List.map_cons, substitute, edit, List.append_assoc]

theorem hideFound_eq : f.hideFound w l =
    (substitute w 0 ((f.search w).map f.edit), (moveOver ((f.search w).map f.edit) l 0).1) := by
  have h := @foldl_hideFound f w l (f.search w) 0 [] 0 (f.ordered w) rfl
  exact Prod.ext h.1 h.2

theorem hideFound_tracks {R : Text → Text → Prop}
    (hR : ∀ span ∈ f.search w, R (piece w span.1 span.2) f.placeholder)
    (huncut : ∀ span ∈ f.search w, ∀ e ∈ l, Uncut e span.1 span.2)
    (h : List.Forall₂ (fun e e' => Tracks R w₀ e w e') l₀ l) :
    List.Forall₂ (fun e e' => Tracks R w₀ e (f.hideFound w l).1 e') l₀ (f.hideFound w l).2 := by
  rw [hideFound_eq, moveOver_eq, List.forall₂_map_right_iff]
  have hcut : ∀ e ∈ l, ∀ x ∈ (f.search w).map f.edit, Uncut e x.start x.stop := by
    intro e he x hx
    obtain ⟨span, hspan, rfl⟩ := List.mem_map.mp hx
    exact huncut span hspan e he
  have hboth := List.forall₂_and_left _ _ |>.mpr ⟨hcut, h.flip⟩
  refine (hboth.imp fun e' e h => ?_).flip
  refine Tracks.pass h.2 ?_ ?_ ?_ h.1
  · rw [List.map_map]
    exact (List.map_id (f.search w)).symm ▸ f.ordered w
  · intro x hx
    obtain ⟨span, -, rfl⟩ := List.mem_map.mp hx
    rfl
  · intro x hx
    obtain ⟨span, hspan, rfl⟩ := List.mem_map.mp hx
    exact hR span hspan

/-! ## The first pass -/

def IsLink (e : MessageEntity) : Prop :=
  match e.kind with
  | .url | .mention | .textUrl _ => True
  | _ => False

/-- One of the entities ends before the other one begins. -/
def Apart (e e' : MessageEntity) : Prop :=
  e.offset + e.length ≤ e'.offset ∨ e'.offset + e'.length ≤ e.offset

def survives (f : UrlFilter) (w : Text) (e : MessageEntity) : Bool := !f.hits w e && !f.drops e

theorem isLink_of_hits {e : MessageEntity} (h : f.hits w e = true) : IsLink e := by
  obtain ⟨kind, offset, length⟩ := e
  cases kind <;> trivial

theorem hits_congr {e e' : MessageEntity} (hkind : e'.kind = e.kind)
    (hslice : IsLink e → pySlice w₀ e'.offset (e'.offset + e'.length) =
      pySlice w e.offset (e.offset + e.length)) : f.hits w₀ e' = f.hits w e := by
  obtain ⟨kind, offset, length⟩ := e
  unfold hits
  rw [hkind]
  cases kind <;> first | rfl | rw [hslice trivial]

theorem drops_congr {e e' : MessageEntity} (hkind : e'.kind = e.kind) : f.drops e' = f.drops e := by
  unfold drops
  rw [hkind]

section Moving

variable {e e' e'' : MessageEntity} {diff : ℤ}

/-- Two entities that do not cut each other still do not after a third one has been replaced. -/
theorem uncut_movedBy (hlength : 0 ≤ e'.length) (hpos : 0 < e.length) (hpos' : 0 < e''.length)
    (hdiff : -e.length ≤ diff) (h : Uncut e' e.offset (e.offset + e.length))
    (h' : Uncut e' e''.offset (e''.offset + e''.length)) (hapart : Apart e e'') :
    Uncut (movedBy e.offset (e.offset + e.length) diff e')
      (movedBy e.offset (e.offset + e.length) diff e'').offset
      ((movedBy e.offset (e.offset + e.length) diff e'').offset +
        (movedBy e.offset (e.offset + e.length) diff e'').length) := by
  have huncut : Uncut e'' e.offset (e.offset + e.length) := by
    unfold Uncut
    unfold Apart at hapart
    omega
  have hplaces := @movedBy_places e' _ _ diff hlength h
  have hplaces' := @movedBy_places e'' _ _ diff (Int.le_of_lt hpos') huncut
  unfold Uncut at h' ⊢
  unfold Apart at hapart
  omega

theorem apart_movedBy (hpos' : 0 < e'.length) (hpos'' : 0 < e''.length)
    (hdiff : -e.length ≤ diff) (h : Apart e e') (h' : Apart e e'') (hapart : Apart e' e'') :
    Apart (movedBy e.offset (e.offset + e.length) diff e')
      (movedBy e.offset (e.offset + e.length) diff e'') := by
  have huncut : ∀ x : MessageEntity, Apart e x → Uncut x e.offset (e.offset + e.length) := by
    intro x hx
    unfold Uncut
    unfold Apart at hx
    omega
  have hplaces := @movedBy_places e' _ _ diff (Int.le_of_lt hpos') (huncut e' h)
  have hplaces' := @movedBy_places e'' _ _ diff (Int.le_of_lt hpos'') (huncut e'' h')
  unfold Apart at h h' hapart ⊢
  omega

end Moving

/-- The text of the entity is where the entity has been moved to, as it was. -/
def Stays (w : Text) (e : MessageEntity) (w' : Text) (e' : MessageEntity) : Prop :=
  ∃ a b c a' c', Parts w e a b c ∧ Parts w' e' a' b c'

theorem Stays.pySlice_eq {w' : Text} {e e' : MessageEntity} (h : Stays w e w' e') :
    pySlice w' e'.offset (e'.offset + e'.length) = pySlice w e.offset (e.offset + e.length) := by
  obtain ⟨a, b, c, a', c', hparts, hparts'⟩ := h
  rw [hparts.pySlice_eq, hparts'.pySlice_eq]

theorem Stays.length_eq {w' : Text} {e e' : MessageEntity} (h : Stays w e w' e') :
    e'.length = e.length := by
  obtain ⟨a, b, c, a', c', hparts, hparts'⟩ := h
  rw [← hparts.length, ← hparts'.length]

/-- What holds when the first `i` entities have had their turn; `G` is where an entity is by then. -/
structure Hid (f : UrlFilter) (m : EventMessage) (i : ℕ) (st : Hiding)
    (G : MessageEntity → MessageEntity) : Prop where
  entities : st.entities = m.entities.map G
  tracks : ∀ e ∈ m.entities, Tracks (f.Hidden m) m.message e st.text (G e)
  kept : (st.kept.filterMap fun j => m.entities[j]?) =
    (m.entities.take i).filter (survives f m.message)
  stays : ∀ e ∈ m.entities.drop i, IsLink e → Stays m.message e st.text (G e)
  uncut : ∀ e ∈ m.entities, ∀ l ∈ m.entities.drop i, f.hits m.message l = true →
    Uncut (G e) (G l).offset ((G l).offset + (G l).length)
  apart : (m.entities.drop i).Pairwise fun l l' => IsLink l → IsLink l' → Apart (G l) (G l')

variable {m : EventMessage} {i : ℕ} {st : Hiding} {G : MessageEntity → MessageEntity}

theorem Hid.hits_eq (h : Hid f m i st G) {e : MessageEntity} (he : e ∈ m.entities)
    (hdrop : e ∈ m.entities.drop i) : f.hits st.text (G e) = f.hits m.message e :=
  hits_congr (h.tracks e he).1 fun hlink => (h.stays e hdrop hlink).pySlice_eq

theorem Hid.passed (h : Hid f m i st G) {e : MessageEntity} {kept : List ℕ}
    (hdrop : m.entities.drop i = e :: m.entities.drop (i + 1))
    (htake : m.entities.take (i + 1) = m.entities.take i ++ [e])
    (hkept : (kept.filterMap fun j => m.entities[j]?) =
      (st.kept.filterMap fun j => m.entities[j]?) ++ [e].filter (survives f m.message)) :
    Hid f m (i + 1) { st with kept := kept } G where
  entities := h.entities
  tracks := h.tracks
  kept := by rw [hkept, h.kept, htake, List.filter_append]
  stays e' he' := h.stays e' (hdrop ▸ List.mem_cons_of_mem e he')
  uncut e' he' l hl := h.uncut e' he' l (hdrop ▸ List.mem_cons_of_mem e hl)
  apart := by
    have hapart := h.apart
    rw [hdrop] at hapart
    exact hapart.of_cons

theorem Hid.replaced (h : Hid f m i st G) (hpos : ∀ e ∈ m.entities, 0 < e.length) {e : MessageEntity}
    (hmem : e ∈ m.entities) (hdrop : m.entities.drop i = e :: m.entities.drop (i + 1))
    (htake : m.entities.take (i + 1) = m.entities.take i ++ [e])
    (hhits : f.hits m.message e = true) :
    Hid f m (i + 1)
      { st with
        text := replaceAt st.text (G e).offset ((G e).offset + (G e).length) f.placeholder
        entities := updateEntitiesParams st.entities (G e).offset ((G e).offset + (G e).length)
          (f.placeholder.length - (G e).length) }
      (movedBy (G e).offset ((G e).offset + (G e).length) (f.placeholder.length - (G e).length) ∘ G) := by
  have hfirst : e ∈ m.entities.drop i := hdrop ▸ List.mem_cons_self
  have hlater : ∀ l ∈ m.entities.drop (i + 1), l ∈ m.entities.drop i :=
    fun l hl => hdrop ▸ List.mem_cons_of_mem e hl
  have hlink := isLink_of_hits hhits
  obtain ⟨hoffset, hnonneg, hstop⟩ := (h.tracks e hmem).within
  have hlength := (h.stays e hfirst hlink).length_eq
  have hhidden : f.Hidden m (pySlice st.text (G e).offset ((G e).offset + (G e).length)) f.placeholder :=
    ⟨rfl, .inl ⟨e, hmem, hhits, (h.stays e hfirst hlink).pySlice_eq⟩⟩
  have hepos := hpos e hmem
  have hlinkpos : ∀ l ∈ m.entities.drop i, IsLink l → 0 < (G l).length := by
    intro l hl hlinkl
    rw [(h.stays l hl hlinkl).length_eq]
    exact hpos l (List.mem_of_mem_drop hl)
  have hdiff : (f.placeholder.length : ℤ) - (G e).length =
      f.placeholder.length - ((G e).offset + (G e).length - (G e).offset) := by omega
  have hapart := h.apart
  rw [hdrop] at hapart
  obtain ⟨hfirstApart, hrestApart⟩ := List.pairwise_cons.mp hapart
  refine ⟨?_, ?_, ?_, ?_, ?_, ?_⟩
  · rw [updateEntitiesParams_eq_map, h.entities, List.map_map]
  · intro e' he'
    have hcut := h.uncut e' he' e hfirst hhits
    simp only [Function.comp_apply, hdiff]
    exact (h.tracks e' he').update hoffset (by omega) hstop hcut hhidden
  · rw [h.kept, htake, List.filter_append]
    simp [survives, hhits]
  · intro l hl hlinkl
    have haway := hfirstApart l hl hlink hlinkl
    obtain ⟨a, b, c, a', c', hparts, hparts'⟩ := h.stays l (hlater l hl) hlinkl
    have hcut : Uncut (G l) (G e).offset ((G e).offset + (G e).length) := by
      unfold Uncut
      unfold Apart at haway
      omega
    obtain ⟨a'', b'', c'', hparts'', -, -, -, hsame⟩ :=
      hparts'.update hoffset (by omega) hstop hcut hhidden
    have hb : b'' = b := by
      refine hsame.resolve_right ?_
      have hlpos := hlinkpos l (hlater l hl) hlinkl
      unfold Apart at haway
      omega
    subst hb
    simp only [Function.comp_apply, hdiff]
    exact ⟨a, b'', c, a'', c'', hparts, hparts''⟩
  · intro e' he' l hl hhitsl
    have hlinkl := isLink_of_hits hhitsl
    exact uncut_movedBy (h.tracks e' he').within.2.1 (by omega) (hlinkpos l (hlater l hl) hlinkl)
      (by omega) (h.uncut e' he' e hfirst hhits) (h.uncut e' he' l (hlater l hl) hhitsl)
      (hfirstApart l hl hlink hlinkl)
  · refine List.Pairwise.imp_of_mem ?_ hrestApart
    intro l l' hl hl' hll' hlinkl hlinkl'
    exact apart_movedBy (hlinkpos l (hlater l hl) hlinkl) (hlinkpos l' (hlater l' hl') hlinkl')
      (by omega) (hfirstApart l hl hlink hlinkl) (hfirstApart l' hl' hlink hlinkl') (hll' hlinkl hlinkl')

theorem Hid.hide (h : Hid f m i st G) (hpos : ∀ e ∈ m.entities, 0 < e.length) (hi : i < m.entities.length) :
    ∃ G', Hid f m (i + 1) (f.hide st i) G' := by
  obtain ⟨e, he⟩ : ∃ e, m.entities[i]? = some e := ⟨_, List.getElem?_eq_getElem hi⟩
  have hmem : e ∈ m.entities := List.mem_of_getElem? he
  have hget : m.entities[i] = e := (List.getElem?_eq_some_iff.mp he).2
  have hdrop : m.entities.drop i = e :: m.entities.drop (i + 1) := by
    rw [List.drop_eq_getElem_cons hi, hget]
  have htake : m.entities.take (i + 1) = m.entities.take i ++ [e] := by
    rw [List.take_succ_eq_append_getElem hi, hget]
  have hnow : st.entities[i]? = some (G e) := by
    rw [h.entities, List.getElem?_map, he]
    rfl
  have hhits := h.hits_eq hmem (hdrop ▸ List.mem_cons_self)
  have hdrops : f.drops (G e) = f.drops e := drops_congr (h.tracks e hmem).1
  unfold UrlFilter.hide
  simp only [hnow]
  split
  · rename_i hhit
    exact ⟨_, h.replaced hpos hmem hdrop htake (hhits ▸ hhit)⟩
  · rename_i hhit
    rw [hhits, Bool.not_eq_true] at hhit
    split
    · rename_i hdropped
      rw [hdrops] at hdropped
      refine ⟨G, h.passed hdrop htake ?_⟩
      simp [survives, hdropped]
    · rename_i hdropped
      rw [hdrops, Bool.not_eq_true] at hdropped
      refine ⟨G, h.passed hdrop htake ?_⟩
      simp [survives, hhit, hdropped, he]

theorem hideEntities_tracks (hwithin : ∀ e ∈ m.entities, Within m.message e)
    (hpos : ∀ e ∈ m.entities, 0 < e.length)
    (hapart : m.entities.Pairwise fun l l' => IsLink l → IsLink l' → Apart l l')
    (huncut : ∀ e ∈ m.entities, ∀ l ∈ m.entities, f.hits m.message l = true →
      Uncut e l.offset (l.offset + l.length)) :
    List.Forall₂ (fun e e' => Tracks (f.Hidden m) m.message e (f.hideEntities m).text e')
      (m.entities.filter (survives f m.message)) (f.hideEntities m).survivors := by
  have hrun : ∀ i ≤ m.entities.length,
      ∃ G, Hid f m i ((List.range i).foldl f.hide ⟨m.message, m.entities, []⟩) G := by
    intro i hi
    induction i with
    | zero => exact ⟨id, (List.map_id _).symm, fun e he => (hwithin e he).tracks, rfl, fun e he _ => by
        obtain ⟨-, a, b, c, -, -, -, hparts, -⟩ :=
          (hwithin e (List.mem_of_mem_drop he)).tracks (R := f.Hidden m)
        exact ⟨a, b, c, a, c, hparts, hparts⟩, huncut, hapart⟩
    | succ i ih =>
      obtain ⟨G, hG⟩ := ih (by omega)
      rw [List.range_succ, List.foldl_append]
      exact hG.hide hpos hi
  obtain ⟨G, hG⟩ : ∃ G, Hid f m m.entities.length (f.hideEntities m) G :=
    hrun m.entities.length (Nat.le_refl _)
  have hkept := hG.kept
  rw [List.take_length] at hkept
  have hsurvivors : (f.hideEntities m).survivors = (m.entities.filter (survives f m.message)).map G := by
    rw [← hkept, Hiding.survivors, List.map_filterMap, hG.entities]
    refine List.filterMap_congr fun j _ => ?_
    rw [List.getElem?_map]
  rw [hsurvivors, List.forall₂_map_right_iff, List.forall₂_same]
  exact fun e he => hG.tracks e (List.mem_of_mem_filter he)

end UrlFilter

def starFilter : UrlFilter where
  placeholder := [42]
  matchesText _ := false
  matchesUrl _ := false
  search _ := []
  ordered _ := Nat.zero_le _
  filterMention := .inl true
  filterByIdMention := false

def starMessage : EventMessage where
  id := 5
  message := [64, 97, 98, 32, 99, 100]
  entities := [⟨.mention, 0, 3⟩, ⟨.other "bold", 4, 2⟩]

end TgPlatform.Mirror
