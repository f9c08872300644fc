import TgPlatform.Lib.Rewriting
import TgPlatform.Mirror.Filters

/-! # Entities of a text that is rewritten

A filter replaces pieces of a text one after the other and moves the entities
with them. An entity that no replaced piece cuts stands afterwards on what has
become of its own text.
-/

namespace TgPlatform.Mirror

open Rewriting

/-! ## Slices -/

/-- The place in a text of `n` units that an index stands for; a negative one counts from the
end. -/
def pyIndex (n : ℕ) (i : ℤ) : ℕ := if i < 0 then (i + n).toNat else min i.toNat n

/-- `text[start:stop]`. -/
def pySlice (w : Text) (start stop : ℤ) : Text :=
  piece w (pyIndex w.length start) (pyIndex w.length stop)

/-- `text[:start] + replacement + text[stop:]`. -/
def replaceAt (w : Text) (start stop : ℤ) (r : Text) : Text :=
  splice w (pyIndex w.length start) (pyIndex w.length stop) r

theorem pyIndex_natCast {n i : ℕ} (h : i ≤ n) : pyIndex n (i : ℤ) = i := by
  rw [pyIndex, if_neg (by omega), Int.toNat_natCast, Nat.min_eq_left h]

section Slices

variable {w r : Text} {s t : ℕ}

theorem pySlice_natCast (hst : s ≤ t) (ht : t ≤ w.length) : pySlice w s t = piece w s t := by
  rw [pySlice, pyIndex_natCast ht, pyIndex_natCast (Nat.le_trans hst ht)]

theorem replaceAt_natCast (hst : s ≤ t) (ht : t ≤ w.length) : replaceAt w s t r = splice w s t r := by
  rw [replaceAt, pyIndex_natCast ht, pyIndex_natCast (Nat.le_trans hst ht)]

end Slices

/-! ## Moving entities -/

/-- What `update_entities_params` does with one entity. -/
def updateEntity (start stop diff : ℤ) (e : MessageEntity) : MessageEntity :=
  if e.offset ≥ stop then { e with offset := e.offset + diff }
  else if e.offset ≤ start ∧ e.offset + e.length ≥ stop then { e with length := e.length + diff }
  else if e.offset < start ∧ start < e.offset + e.length ∧ e.offset + e.length < stop then
    { e with length := e.length - ((e.offset + e.length) - start) }
  else if start < e.offset ∧ e.offset < stop ∧ e.offset + e.length > stop then
    { e with offset := stop + diff }
  else if start < e.offset ∧ e.offset < stop ∧ start < e.offset + e.length ∧
      e.offset + e.length < stop then
    { e with offset := start, length := (stop - start) + diff }
  else e

/-- What becomes of one entity; where nothing gets longer or shorter it is left alone. -/
def movedBy (start stop diff : ℤ) (e : MessageEntity) : MessageEntity :=
  if diff = 0 then e else updateEntity start stop diff e

/-- `UpdateEntitiesParams.update_entities_params`. -/
def updateEntitiesParams (l : List MessageEntity) (start stop diff : ℤ) : List MessageEntity :=
  if diff = 0 then l else l.map (updateEntity start stop diff)

theorem updateEntitiesParams_eq_map (l : List MessageEntity) (start stop diff : ℤ) :
    updateEntitiesParams l start stop diff = l.map (movedBy start stop diff) := by
  unfold updateEntitiesParams movedBy
  split
  · exact (List.map_id l).symm
  · rfl

@[simp] theorem movedBy_kind (start stop diff : ℤ) (e : MessageEntity) :
    (movedBy start stop diff e).kind = e.kind := by
  unfold movedBy updateEntity
  repeat' split
  all_goals rfl

/-- The piece does not cut the entity: it stands before, in or after it. -/
def Uncut (e : MessageEntity) (start stop : ℤ) : Prop :=
  stop ≤ e.offset ∨ (e.offset ≤ start ∧ stop ≤ e.offset + e.length) ∨ e.offset + e.length ≤ start

instance (e : MessageEntity) (start stop : ℤ) : Decidable (Uncut e start stop) := by
  unfold Uncut
  infer_instance

section Update

variable {e : MessageEntity} {start stop diff : ℤ}

theorem movedBy_cases (hlength : 0 ≤ e.length) (h : Uncut e start stop) :
    (stop ≤ e.offset ∧ movedBy start stop diff e = { e with offset := e.offset + diff }) ∨
    (e.offset < stop ∧ e.offset ≤ start ∧ stop ≤ e.offset + e.length ∧
      movedBy start stop diff e = { e with length := e.length + diff }) ∨
    (e.offset < stop ∧ e.offset + e.length ≤ start ∧ e.offset + e.length < stop ∧
      movedBy start stop diff e = e) := by
  by_cases hbefore : stop ≤ e.offset
  · refine .inl ⟨hbefore, ?_⟩
    unfold movedBy
    split
    · rename_i hdiff
      rw [hdiff, Int.add_zero]
    · rw [updateEntity, if_pos hbefore]
  · by_cases hwithin : e.offset ≤ start ∧ stop ≤ e.offset + e.length
    · refine .inr (.inl ⟨by omega, hwithin.1, hwithin.2, ?_⟩)
      unfold movedBy
      split
      · rename_i hdiff
        rw [hdiff, Int.add_zero]
      · rw [updateEntity, if_neg hbefore, if_pos hwithin]
    · have hafter := (h.resolve_left hbefore).resolve_left hwithin
      have hle : e.offset ≤ e.offset + e.length := Int.le_add_of_nonneg_right hlength
      refine .inr (.inr ⟨by omega, hafter, by omega, ?_⟩)
      unfold movedBy
      split
      · rfl
      · rw [updateEntity, if_neg hbefore, if_neg hwithin, if_neg (by omega), if_neg (by omega),
          if_neg (by omega)]

theorem movedBy_places (hlength : 0 ≤ e.length) (h : Uncut e start stop) :
    (stop ≤ e.offset ∧ (movedBy start stop diff e).offset = e.offset + diff ∧
      (movedBy start stop diff e).length = e.length) ∨
    (e.offset < stop ∧ e.offset ≤ start ∧ stop ≤ e.offset + e.length ∧
      (movedBy start stop diff e).offset = e.offset ∧
      (movedBy start stop diff e).length = e.length + diff) ∨
    (e.offset < stop ∧ e.offset + e.length ≤ start ∧ e.offset + e.length < stop ∧
      (movedBy start stop diff e).offset = e.offset ∧
      (movedBy start stop diff e).length = e.length) := by
  rcases @movedBy_cases e start stop diff hlength h with ⟨hbefore, hmoved⟩ | ⟨hlt, hs, ht, hmoved⟩ |
    ⟨hlt, hafter, hlt', hmoved⟩
  · exact .inl ⟨hbefore, by rw [hmoved], by rw [hmoved]⟩
  · exact .inr (.inl ⟨hlt, hs, ht, by rw [hmoved], by rw [hmoved]⟩)
  · exact .inr (.inr ⟨hlt, hafter, hlt', by rw [hmoved], by rw [hmoved]⟩)

end Update

/-! ## On what an entity stands -/

/-- The entity stands on `b`. -/
structure Parts (w : Text) (e : MessageEntity) (a b c : Text) : Prop where
  eq : w = a ++ b ++ c
  offset : (a.length : ℤ) = e.offset
  length : (b.length : ℤ) = e.length

/-- The entity stands on what has become of its own text, and what is before and after it has been
rewritten on its own. -/
def Tracks (R : Text → Text → Prop) (w : Text) (e : MessageEntity) (w' : Text) (e' : MessageEntity) :
    Prop :=
  e'.kind = e.kind ∧ ∃ a b c a' b' c', Parts w e a b c ∧ Parts w' e' a' b' c' ∧
    Rewrites R a a' ∧ Rewrites R b b' ∧ Rewrites R c c'

def Within (w : Text) (e : MessageEntity) : Prop :=
  0 ≤ e.offset ∧ 0 ≤ e.length ∧ e.offset + e.length ≤ w.length

section Parts

variable {R : Text → Text → Prop} {w w' r a b c : Text} {e e' : MessageEntity} {start stop : ℤ}

/-- One replacement that does not cut the entity. Unless it is made within the entity, the text of
the entity stays as it is. -/
theorem Parts.update (h : Parts w e a b c) (hstart : 0 ≤ start) (hle : start ≤ stop)
    (hstop : stop ≤ w.length) (huncut : Uncut e start stop) (hR : R (pySlice w start stop) r) :
    ∃ a' b' c', Parts (replaceAt w start stop r)
      (movedBy start stop (r.length - (stop - start)) e) a' b' c' ∧
      Rewrites R a a' ∧ Rewrites R b b' ∧ Rewrites R c c' ∧
      (b' = b ∨ e.offset < stop ∧ e.offset ≤ start ∧ stop ≤ e.offset + e.length) := by
  obtain ⟨s, rfl⟩ := Int.eq_ofNat_of_zero_le hstart
  obtain ⟨t, rfl⟩ := Int.eq_ofNat_of_zero_le (Int.le_trans hstart hle)
  obtain ⟨heq, hoffset, hlength⟩ := h
  have hst : s ≤ t := by omega
  have ht : t ≤ w.length := by omega
  rw [pySlice_natCast hst ht] at hR
  rw [replaceAt_natCast hst ht]
  have hwlength : w.length = a.length + b.length + c.length := by
    rw [heq, List.length_append, List.length_append]
  rcases movedBy_cases (by omega) huncut with ⟨hbefore, hmoved⟩ | ⟨hlt, hs, ht', hmoved⟩ |
    ⟨-, hafter, -, hmoved⟩
  · have hta : t ≤ a.length := by omega
    rw [heq, List.append_assoc, piece_append_left hta] at hR
    refine ⟨splice a s t r, b, c, ⟨?_, ?_, ?_⟩, .single (step_splice hst hR), .refl, .refl, .inl rfl⟩
    · rw [heq, List.append_assoc, splice_append_left hst hta, List.append_assoc]
    · rw [length_splice hst hta, hmoved]
      dsimp only
      omega
    · rw [hmoved]
      exact hlength
  · have has : a.length ≤ s := by omega
    have htb : t - a.length ≤ b.length := by omega
    have hst' : s - a.length ≤ t - a.length := by omega
    rw [heq, List.append_assoc, piece_append_right has hst, piece_append_left htb] at hR
    refine ⟨a, splice b (s - a.length) (t - a.length) r, c, ⟨?_, ?_, ?_⟩, .refl,
      .single (step_splice hst' hR), .refl, .inr ⟨hlt, hs, ht'⟩⟩
    · rw [heq, List.append_assoc, splice_append_right has hst, splice_append_left hst' htb,
        List.append_assoc]
    · rw [hmoved]
      exact hoffset
    · rw [length_splice hst' htb, hmoved]
      dsimp only
      omega
  · have habs : (a ++ b).length ≤ s := by
      rw [List.length_append]
      omega
    rw [heq, piece_append_right habs hst] at hR
    have hst' : s - (a ++ b).length ≤ t - (a ++ b).length := by omega
    rw [hmoved]
    refine ⟨a, b, splice c (s - (a ++ b).length) (t - (a ++ b).length) r, ⟨?_, hoffset, hlength⟩,
      .refl, .refl, .single (step_splice hst' hR), .inl rfl⟩
    rw [heq, splice_append_right habs hst]

theorem Tracks.update {w₀ : Text} {e₀ : MessageEntity} (h : Tracks R w₀ e₀ w e) (hstart : 0 ≤ start)
    (hle : start ≤ stop) (hstop : stop ≤ w.length) (huncut : Uncut e start stop)
    (hR : R (pySlice w start stop) r) :
    Tracks R w₀ e₀ (replaceAt w start stop r) (movedBy start stop (r.length - (stop - start)) e) := by
  obtain ⟨hkind, a, b, c, a', b', c', hparts, hparts', ha, hb, hc⟩ := h
  obtain ⟨a'', b'', c'', hparts'', ha', hb', hc', -⟩ := hparts'.update hstart hle hstop huncut hR
  exact ⟨by rw [movedBy_kind, hkind], a, b, c, a'', b'', c'', hparts, hparts'', ha.trans ha',
    hb.trans hb', hc.trans hc'⟩

theorem Parts.tracks (h : Parts w e a b c) : Tracks R w e w e :=
  ⟨rfl, a, b, c, a, b, c, h, h, .refl, .refl, .refl⟩

theorem Within.tracks (h : Within w e) : Tracks R w e w e := by
  obtain ⟨hoffset, hlength, hle⟩ := h
  have hst : e.offset.toNat ≤ (e.offset + e.length).toNat := by omega
  have ht : (e.offset + e.length).toNat ≤ w.length := by omega
  refine Parts.tracks (a := w.take e.offset.toNat)
    (b := piece w e.offset.toNat (e.offset + e.length).toNat)
    (c := w.drop (e.offset + e.length).toNat) ⟨(take_append_piece hst).symm, ?_, ?_⟩
  · rw [List.length_take]
    omega
  · rw [length_piece hst ht]
    omega

theorem Tracks.within {w₀ : Text} {e₀ : MessageEntity} (h : Tracks R w₀ e₀ w e) : Within w e := by
  obtain ⟨-, a, b, c, a', b', c', -, ⟨heq, hoffset, hlength⟩, -⟩ := h
  have hw : w.length = a'.length + b'.length + c'.length := by
    rw [heq, List.length_append, List.length_append]
  unfold Within
  omega

theorem Parts.pySlice_eq (h : Parts w e a b c) : pySlice w e.offset (e.offset + e.length) = b := by
  obtain ⟨heq, hoffset, hlength⟩ := h
  have hstop : e.offset + e.length = ((a.length + b.length : ℕ) : ℤ) := by omega
  have hle : a.length + b.length ≤ w.length := by
    rw [heq, List.length_append, List.length_append]
    omega
  rw [hstop, ← hoffset, pySlice_natCast (Nat.le_add_right ..) hle, heq, List.append_assoc,
    piece_append_right (Nat.le_refl _) (Nat.le_add_right ..), Nat.sub_self, Nat.add_sub_cancel_left,
    piece_append_left (Nat.le_refl _), piece_all]

end Parts

/-! ## A pass over a text -/

/-- A piece of a text with what it is replaced by, and the length that the entities are moved for. -/
structure Edit where
  start : ℕ
  stop : ℕ
  text : Text
  counted : ℕ
  deriving DecidableEq, Repr

def Edit.span (x : Edit) : ℕ × ℕ := (x.start, x.stop)

/-- The pieces stand one after the other, from `k` on. -/
def Ordered (k : ℕ) : List (ℕ × ℕ) → ℕ → Prop
  | [], n => k ≤ n
  | x :: l, n => k ≤ x.1 ∧ x.1 ≤ x.2 ∧ Ordered x.2 l n

/-- The text from `k` on with the pieces replaced. -/
def substitute (w : Text) (k : ℕ) : List Edit → Text
  | [] => w.drop k
  | x :: l => piece w k x.start ++ x.text ++ substitute w x.stop l

def Edit.diff (x : Edit) : ℤ := x.counted - ((x.stop : ℤ) - x.start)

/-- The entities, and how far the text before the next piece is taken to have moved. -/
def moveOver (edits : List Edit) (l : List MessageEntity) (error : ℤ) : List MessageEntity × ℤ :=
  edits.foldl (fun st x =>
    (updateEntitiesParams st.1 (x.start + st.2) (x.stop + st.2) x.diff, st.2 + x.diff)) (l, error)

def Edit.moveEntity (edits : List Edit) (e : MessageEntity) (error : ℤ) : MessageEntity × ℤ :=
  edits.foldl (fun st x =>
    (movedBy (x.start + st.2) (x.stop + st.2) x.diff st.1, st.2 + x.diff)) (e, error)

theorem moveOver_eq (edits : List Edit) (l : List MessageEntity) (error : ℤ) :
    (moveOver edits l error).1 = l.map fun e => (Edit.moveEntity edits e error).1 := by
  induction edits generalizing l error with
  | nil => exact (List.map_id l).symm
  | cons x edits ih =>
    change (moveOver edits (updateEntitiesParams l _ _ _) _).1 = _
    rw [ih, updateEntitiesParams_eq_map, List.map_map]
    rfl

theorem Ordered.le {k n : ℕ} : ∀ {l : List (ℕ × ℕ)}, Ordered k l n → k ≤ n
  | [], h => h
  | x :: l, ⟨hk, hx, h⟩ => by
    have := h.le
    omega

/-- The place of a border before and after the pieces up to `k` have been replaced. -/
def Border (k : ℕ) (error p p' : ℤ) : Prop := (k ≤ p → p' = p + error) ∧ (p < k → p' ≤ k + error)

section Pass

variable {R : Text → Text → Prop} {w₀ w d : Text} {e₀ e : MessageEntity}

theorem uncut_of_border {e₁ : MessageEntity} {k : ℕ} {start stop error : ℤ} (hk : (k : ℤ) ≤ start)
    (hle : start ≤ stop) (h : Uncut e₁ start stop) (hleft : Border k error e₁.offset e.offset)
    (hright : Border k error (e₁.offset + e₁.length) (e.offset + e.length)) :
    Uncut e (start + error) (stop + error) := by
  unfold Uncut Border at *
  omega

theorem border_movedBy {e₁ : MessageEntity} {k stop : ℕ} {start error diff : ℤ} (hk : (k : ℤ) ≤ start)
    (hle : start ≤ stop) (hdiff : start ≤ stop + diff) (hlength : 0 ≤ e.length)
    (hlength₁ : 0 ≤ e₁.length) (h : Uncut e₁ start stop) (hleft : Border k error e₁.offset e.offset)
    (hright : Border k error (e₁.offset + e₁.length) (e.offset + e.length)) :
    Border stop (error + diff) e₁.offset (movedBy (start + error) (stop + error) diff e).offset ∧
    Border stop (error + diff) (e₁.offset + e₁.length)
      ((movedBy (start + error) (stop + error) diff e).offset +
        (movedBy (start + error) (stop + error) diff e).length) := by
  have huncut := uncut_of_border hk hle h hleft hright
  have hplaces := @movedBy_places e _ _ diff hlength huncut
  unfold Uncut Border at *
  omega

/-- The pieces are replaced one after the other, the text before the next one having become `d`. -/
theorem pass_tracks {e₁ : MessageEntity} {k : ℕ} {error : ℤ} {edits : List Edit}
    (hedits : Ordered k (edits.map Edit.span) w.length) (hd : (d.length : ℤ) = k + error)
    (hcounted : ∀ x ∈ edits, x.counted = x.text.length)
    (hR : ∀ x ∈ edits, R (piece w x.start x.stop) x.text)
    (huncut : ∀ x ∈ edits, Uncut e₁ x.start x.stop) (hlength : 0 ≤ e₁.length)
    (hleft : Border k error e₁.offset e.offset)
    (hright : Border k error (e₁.offset + e₁.length) (e.offset + e.length))
    (h : Tracks R w₀ e₀ (d ++ w.drop k) e) :
    Tracks R w₀ e₀ (d ++ substitute w k edits) (Edit.moveEntity edits e error).1 := by
  induction edits generalizing k d error e with
  | nil => exact h
  | cons x edits ih =>
    obtain ⟨hk, hx, hrest⟩ := hedits
    change k ≤ x.start at hk
    change x.start ≤ x.stop at hx
    have hn : x.stop ≤ w.length := hrest.le
    have hxcounted := hcounted x List.mem_cons_self
    have hstart : (x.start : ℤ) + error = ((d.length + (x.start - k) : ℕ) : ℤ) := by omega
    have hstop : (x.stop : ℤ) + error = ((d.length + (x.stop - k) : ℕ) : ℤ) := by omega
    have hle : d.length + (x.start - k) ≤ d.length + (x.stop - k) := by omega
    have hlen : d.length + (x.stop - k) ≤ (d ++ w.drop k).length := by
      rw [List.length_append, List.length_drop]
      omega
    have hcut := uncut_of_border (by omega) (by omega) (huncut x List.mem_cons_self) hleft hright
    have hgrown : (x.start : ℤ) ≤ x.stop + x.diff := by
      unfold Edit.diff
      omega
    obtain ⟨hleft', hright'⟩ := border_movedBy (by omega) (by omega) hgrown h.within.2.1 hlength
      (huncut x List.mem_cons_self) hleft hright
    have hupdated : Tracks R w₀ e₀ (d ++ piece w k x.start ++ x.text ++ w.drop x.stop)
        (movedBy (x.start + error) (x.stop + error) x.diff e) := by
      have hdiff : x.diff = x.text.length - ((x.stop + error) - (x.start + error)) := by
        unfold Edit.diff
        omega
      rw [hdiff]
      rw [hstart, hstop] at hcut ⊢
      have hpiece : R (pySlice (d ++ w.drop k) ((d.length + (x.start - k) : ℕ) : ℤ)
          ((d.length + (x.stop - k) : ℕ) : ℤ)) x.text := by
        rw [pySlice_natCast hle hlen, piece_append_drop hk hx]
        exact hR x List.mem_cons_self
      have hupdate := h.update (by omega) (by omega) (by omega) hcut hpiece
      rwa [replaceAt_natCast hle hlen, splice_append_drop hk hx] at hupdate
    have hlength' : ((d ++ piece w k x.start ++ x.text).length : ℤ) = x.stop + (error + x.diff) := by
      rw [List.length_append, List.length_append, length_piece hk (by omega)]
      unfold Edit.diff
      omega
    have hpass := ih hrest hlength' (fun y hy => hcounted y (List.mem_cons_of_mem x hy))
      (fun y hy => hR y (List.mem_cons_of_mem x hy)) (fun y hy => huncut y (List.mem_cons_of_mem x hy))
      hleft' hright' hupdated
    have hsubstitute : d ++ substitute w k (x :: edits) =
        d ++ piece w k x.start ++ x.text ++ substitute w x.stop edits := by
      simp only [substitute, List.append_assoc]
    rw [hsubstitute]
    exact hpass

theorem Tracks.pass {edits : List Edit} (h : Tracks R w₀ e₀ w e)
    (hedits : Ordered 0 (edits.map Edit.span) w.length)
    (hcounted : ∀ x ∈ edits, x.counted = x.text.length)
    (hR : ∀ x ∈ edits, R (piece w x.start x.stop) x.text)
    (huncut : ∀ x ∈ edits, Uncut e x.start x.stop) :
    Tracks R w₀ e₀ (substitute w 0 edits) (Edit.moveEntity edits e 0).1 := by
  have hborder : ∀ p : ℤ, 0 ≤ p → Border 0 0 p p := fun p hp => ⟨fun _ => by omega, fun _ => by omega⟩
  obtain ⟨hoffset, hlength, -⟩ := h.within
  have hpass := pass_tracks (d := []) hedits rfl hcounted hR huncut hlength (hborder _ hoffset)
    (hborder _ (by omega)) (by simpa using h)
  simpa using hpass

end Pass

end TgPlatform.Mirror
