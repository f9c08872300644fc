import Mathlib.Data.List.Basic
import Mathlib.Logic.Relation

/-! # Words in which pieces are replaced

A word is rewritten by replacing pieces of it one after the other, each by what
may stand for it. Parts of a word can be rewritten on their own: a replacement
that does not cross the border of two parts is one of the first or of the second.
-/

namespace Rewriting

variable {α : Type*} {R : List α → List α → Prop} {a b c u v w x y x' y' r : List α} {s t : ℕ}

/-- One piece of the word is replaced. -/
inductive Step (R : List α → List α → Prop) : List α → List α → Prop
  | replace {u v : List α} (a c : List α) (h : R u v) : Step R (a ++ u ++ c) (a ++ v ++ c)

abbrev Rewrites (R : List α → List α → Prop) : List α → List α → Prop :=
  Relation.ReflTransGen (Step R)

/-- The word with the piece from `s` to `t` replaced. -/
def splice (w : List α) (s t : ℕ) (r : List α) : List α := w.take s ++ r ++ w.drop t

/-- The piece from `s` to `t`. -/
def piece (w : List α) (s t : ℕ) : List α := (w.take t).drop s

theorem length_piece (hst : s ≤ t) (ht : t ≤ w.length) : (piece w s t).length = t - s := by
  simp only [piece, List.length_drop, List.length_take]
  omega

theorem take_append_piece (hst : s ≤ t) : w.take s ++ piece w s t ++ w.drop t = w := by
  have htake : w.take s = (w.take t).take s := by
    rw [List.take_take, Nat.min_eq_left hst]
  rw [piece, htake, List.take_append_drop, List.take_append_drop]

theorem length_splice (hst : s ≤ t) (ht : t ≤ w.length) :
    (splice w s t r).length = w.length - (t - s) + r.length := by
  simp only [splice, List.length_append, List.length_take, List.length_drop]
  omega

theorem step_splice (hst : s ≤ t) (h : R (piece w s t) r) : Step R w (splice w s t r) := by
  have hstep := Step.replace (w.take s) (w.drop t) h
  rwa [take_append_piece hst] at hstep

theorem splice_append_left (hst : s ≤ t) (ht : t ≤ a.length) :
    splice (a ++ b) s t r = splice a s t r ++ b := by
  simp only [splice, List.take_append_of_le_length (Nat.le_trans hst ht),
    List.drop_append_of_le_length ht, List.append_assoc]

theorem splice_append_right (hs : a.length ≤ s) (hst : s ≤ t) :
    splice (a ++ b) s t r = a ++ splice b (s - a.length) (t - a.length) r := by
  simp only [splice, List.take_append, List.drop_append, List.take_of_length_le hs,
    List.drop_of_length_le (Nat.le_trans hs hst), List.append_assoc, List.nil_append]

theorem piece_append_left (ht : t ≤ a.length) : piece (a ++ b) s t = piece a s t := by
  rw [piece, List.take_append_of_le_length ht, piece]

theorem piece_append_right (hs : a.length ≤ s) (hst : s ≤ t) :
    piece (a ++ b) s t = piece b (s - a.length) (t - a.length) := by
  rw [piece, piece, List.take_append, List.take_of_length_le (Nat.le_trans hs hst), List.drop_append,
    List.drop_of_length_le hs, List.nil_append]

theorem piece_all : piece w 0 w.length = w := by
  rw [piece, List.take_length, List.drop_zero]

/-! ## The part of a word from a place on -/

section Drop

variable {d : List α} {k : ℕ}

theorem splice_append_drop (hks : k ≤ s) (hst : s ≤ t) :
    splice (d ++ w.drop k) (d.length + (s - k)) (d.length + (t - k)) r =
      d ++ piece w k s ++ r ++ w.drop t := by
  have hs : k + (s - k) = s := Nat.add_sub_cancel' hks
  have ht : k + (t - k) = t := Nat.add_sub_cancel' (Nat.le_trans hks hst)
  rw [splice_append_right (Nat.le_add_right ..) (by omega), Nat.add_sub_cancel_left,
    Nat.add_sub_cancel_left, splice, piece, List.take_drop, List.drop_drop, hs, ht]
  simp only [List.append_assoc]

theorem piece_append_drop (hks : k ≤ s) (hst : s ≤ t) :
    piece (d ++ w.drop k) (d.length + (s - k)) (d.length + (t - k)) = piece w s t := by
  have hs : k + (s - k) = s := Nat.add_sub_cancel' hks
  have ht : k + (t - k) = t := Nat.add_sub_cancel' (Nat.le_trans hks hst)
  rw [piece_append_right (Nat.le_add_right ..) (by omega), Nat.add_sub_cancel_left,
    Nat.add_sub_cancel_left, piece, piece, List.take_drop, List.drop_drop, ht, hs]

end Drop

end Rewriting
