import Mathlib.Data.List.Forall2
import TgPlatform.Mirror.Entities

/-! # Replacing keywords

Each keyword is replaced everywhere in the text that the keywords before it have
left, in the case in which it is written there. The entities are moved with the
text. How far it has moved is carried over from one keyword to the next, although
the next one is looked for in the new text, so that the entities keep their places
where nothing is left to carry over.
-/

namespace TgPlatform.Mirror

open Rewriting

/-! ## Surrogates -/

def isHigh (u : UInt16) : Bool := 0xD800 ≤ u && u < 0xDC00

def isLow (u : UInt16) : Bool := 0xDC00 ≤ u && u < 0xE000

def Text.wellFormed : Text → Bool
  | [] => true
  | [u] => !isHigh u && !isLow u
  | u :: v :: w =>
    if isHigh u then isLow v && wellFormed w else !isLow u && wellFormed (v :: w)

/-- `utils.del_surrogate`; a surrogate on its own cannot be decoded. -/
def delSurrogate (w : Text) : Option Text := if w.wellFormed then some w else none

/-! ## Keywords -/

/-- The methods of a text that have to do with case. -/
structure Casing where
  islower : Text → Bool
  istitle : Text → Bool
  isupper : Text → Bool
  lower : Text → Text
  title : Text → Text
  upper : Text → Text

def Casing.apply (c : Casing) (full replacement : Text) : Text :=
  if c.islower full then c.lower replacement
  else if c.istitle full then c.title replacement
  else if c.isupper full then c.upper replacement
  else replacement

structure Keyword where
  finditer : Text → List (ℕ × ℕ × Text)
  ordered : ∀ w, Ordered 0 ((finditer w).map fun x => (x.1, x.2.1)) w.length

/-- What is replaced by what. The length counts before the case is changed. -/
def Keyword.edits (c : Casing) (k : Keyword) (w : Text) : List Edit :=
  (k.finditer w).map fun x => ⟨x.1, x.2.1, c.apply (piece w x.1 x.2.1) x.2.2, x.2.2.length⟩

structure Replacing where
  text : Text
  entities : List MessageEntity
  error : ℤ

/-- `k.sub(repl, filtered_text)`. -/
def Replacing.sub (c : Casing) (st : Replacing) (k : Keyword) : Replacing :=
  let edits := k.edits c st.text
  let moved := moveOver edits st.entities st.error
  { text := substitute st.text 0 edits, entities := moved.1, error := moved.2 }

/-- `KeywordReplaceFilter`. -/
def MessageFilter.keywordReplace (c : Casing) (keywords : List Keyword) : MessageFilter :=
  ofMessage fun m _ =>
    if m.message.isEmpty then some (.continue_, m)
    else
      let st := keywords.foldl (Replacing.sub c) ⟨m.message, m.entities, 0⟩
      (delSurrogate st.text).map fun text => (.continue_, { m with message := text, entities := st.entities })

/-! ## Where the entities end up -/

section Replace

variable {c : Casing} {k : Keyword} {keywords : List Keyword} {st : Replacing}

theorem Keyword.ordered_edits (w : Text) : Ordered 0 ((k.edits c w).map Edit.span) w.length := by
  rw [Keyword.edits, List.map_map]
  exact k.ordered w

/-- What is replaced by what: each keyword where it is found in the text that those before it have
left. -/
def Replaced (c : Casing) : List Keyword → Replacing → Text → Text → Prop
  | [], _, _, _ => False
  | k :: keywords, st, u, v =>
    (∃ x ∈ k.edits c st.text, u = piece st.text x.start x.stop ∧ v = x.text) ∨
      Replaced c keywords (st.sub c k) u v

/-- Nothing is carried over to a keyword that is found, its case does not change the length of the
replacement, and no place where it is found cuts an entity. -/
def KeepsPlaces (c : Casing) : List Keyword → Replacing → Prop
  | [], _ => True
  | k :: keywords, st =>
    (k.edits c st.text = [] ∨ st.error = 0) ∧
    (∀ x ∈ k.edits c st.text, x.counted = x.text.length ∧ ∀ e ∈ st.entities, Uncut e x.start x.stop) ∧
    KeepsPlaces c keywords (st.sub c k)

theorem sub_tracks {R : Text → Text → Prop} {w : Text} {entities : List MessageEntity}
    (hR : ∀ x ∈ k.edits c st.text, R (piece st.text x.start x.stop) x.text)
    (hkeeps : KeepsPlaces c [k] st)
    (h : List.Forall₂ (fun e e' => Tracks R w e st.text e') entities st.entities) :
    List.Forall₂ (fun e e' => Tracks R w e (st.sub c k).text e') entities (st.sub c k).entities := by
  obtain ⟨hcarried, hfits, -⟩ := hkeeps
  change List.Forall₂ _ entities (moveOver (k.edits c st.text) st.entities st.error).1
  rw [moveOver_eq, List.forall₂_map_right_iff]
  rcases hcarried with hnone | hzero
  · change List.Forall₂ (fun e e' => Tracks R w e (substitute st.text 0 (k.edits c st.text)) _) _ _
    rw [hnone]
    exact h
  · rw [hzero]
    have huncut : ∀ e' ∈ st.entities, ∀ x ∈ k.edits c st.text, Uncut e' x.start x.stop :=
      fun e' he' x hx => (hfits x hx).2 e' he'
    have hboth := List.forall₂_and_left _ _ |>.mpr ⟨huncut, h.flip⟩
    refine (hboth.imp fun e' e h => ?_).flip
    exact Tracks.pass h.2 (k.ordered_edits st.text) (fun x hx => (hfits x hx).1) hR h.1

theorem foldl_sub_tracks {R : Text → Text → Prop} {w : Text} {entities : List MessageEntity}
    (hR : ∀ u v, Replaced c keywords st u v → R u v) (hkeeps : KeepsPlaces c keywords st)
    (h : List.Forall₂ (fun e e' => Tracks R w e st.text e') entities st.entities) :
    List.Forall₂ (fun e e' => Tracks R w e (keywords.foldl (Replacing.sub c) st).text e') entities
      (keywords.foldl (Replacing.sub c) st).entities := by
  induction keywords generalizing st with
  | nil => exact h
  | cons k keywords ih =>
    obtain ⟨hcarried, hfits, hrest⟩ := hkeeps
    exact ih (fun u v hreplaced => hR u v (.inr hreplaced)) hrest
      (sub_tracks (fun x hx => hR _ _ (.inl ⟨x, hx, rfl, rfl⟩)) ⟨hcarried, hfits, trivial⟩ h)

end Replace

/-- `ab` is replaced by `xyz`, and the case of small letters is kept. -/
def abKeyword : Keyword where
  finditer w := if w = [97, 98, 32, 99, 100] then [(0, 2, [120, 121, 122])] else []
  ordered w := by
    split
    · rename_i hw
      rw [hw]
      simp [Ordered]
    · exact Nat.zero_le _

def abCasing : Casing where
  islower w := w = [97, 98]
  istitle _ := false
  isupper _ := false
  lower w := w
  title w := w
  upper w := w

end TgPlatform.Mirror
