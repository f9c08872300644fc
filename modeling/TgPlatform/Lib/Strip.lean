import Mathlib.Data.List.DropRight
import TgPlatform.Lib.Json

/-! # Stripped strings -/

variable {s : String}

theorem toList_strip (s : String) :
    (strip s).toList = (s.toList.dropWhile isSpace).rdropWhile isSpace := by
  unfold strip
  rw [String.toList_ofList]
  rfl

theorem strip_eq_empty : strip s = "" ↔ ∀ c ∈ s.toList, isSpace c = true := by
  rw [← String.toList_inj, toList_strip, String.toList_empty, List.rdropWhile_eq_nil_iff]
  constructor
  · intro h c hc
    rw [← List.takeWhile_append_dropWhile (p := isSpace) (l := s.toList)] at hc
    rcases List.mem_append.mp hc with htake | hdrop
    · exact List.mem_takeWhile_imp htake
    · exact h c hdrop
  · intro h c hc
    exact h c ((List.dropWhile_suffix _).subset hc)

theorem exists_around_strip (s : String) : ∃ before after,
    s.toList = before ++ (strip s).toList ++ after ∧
      (∀ c ∈ before, isSpace c = true) ∧ ∀ c ∈ after, isSpace c = true := by
  refine ⟨s.toList.takeWhile isSpace, (s.toList.dropWhile isSpace).rtakeWhile isSpace, ?_,
    fun c hc => List.mem_takeWhile_imp hc, fun c hc => List.mem_rtakeWhile_imp hc⟩
  rw [toList_strip, List.append_assoc, List.rdropWhile_append_rtakeWhile,
    List.takeWhile_append_dropWhile]

theorem strip_strip (s : String) : strip (strip s) = strip s := by
  have hfirst : (strip s).toList.dropWhile isSpace = (strip s).toList := by
    rw [toList_strip, List.dropWhile_eq_self_iff]
    intro hlength
    have hpre : (s.toList.dropWhile isSpace).rdropWhile isSpace <+: s.toList.dropWhile isSpace :=
      List.rdropWhile_prefix _ _
    rw [hpre.getElem]
    exact List.dropWhile_get_zero_not _ _ _
  rw [← String.toList_inj, toList_strip, hfirst, toList_strip, List.rdropWhile_idempotent]

theorem of_isSpace {P : Char → Bool} {c : Char} (h : isSpace c = true)
    (hP : ∀ n ∈ [0x09, 0x0a, 0x0b, 0x0c, 0x0d, 0x1c, 0x1d, 0x1e, 0x1f, 0x20, 0x85, 0xa0, 0x1680,
      0x2000, 0x2001, 0x2002, 0x2003, 0x2004, 0x2005, 0x2006, 0x2007, 0x2008, 0x2009, 0x200a,
      0x2028, 0x2029, 0x202f, 0x205f, 0x3000], P (Char.ofNat n) = true) : P c = true := by
  unfold isSpace at h
  rw [← Char.ofNat_toNat c]
  exact hP _ (of_decide_eq_true h)

theorem rdropWhile_append {α : Type*} {p : α → Bool} {w l : List α}
    (hlast : ∀ c ∈ w.getLast?, p c = false) : (w ++ l).rdropWhile p = w ++ l.rdropWhile p := by
  have hkept : w.reverse.dropWhile p = w.reverse := by
    rw [← List.reverse_inj, List.reverse_reverse]
    refine List.rdropWhile_eq_self_iff.mpr fun hne => ?_
    rw [hlast _ (List.getLast_mem_getLast? hne)]
    exact Bool.false_ne_true
  unfold List.rdropWhile
  rw [List.reverse_append, List.dropWhile_append, hkept]
  split
  · rename_i hempty
    rw [List.isEmpty_iff.mp hempty]
    simp
  · rw [List.reverse_append, List.reverse_reverse]

theorem strip_append {w l : List Char} (hfirst : ∀ c ∈ w.head?, isSpace c = false)
    (hlast : ∀ c ∈ w.getLast?, isSpace c = false) (hw : w ≠ []) :
    strip (String.ofList (w ++ l)) = String.ofList (w ++ l.rdropWhile isSpace) := by
  have hkept : (w ++ l).dropWhile isSpace = w ++ l := by
    cases w with
    | nil => exact absurd rfl hw
    | cons c w =>
      have hc : isSpace c = false := hfirst c rfl
      exact List.dropWhile_cons_of_neg (by simp [hc])
  rw [← String.toList_inj, toList_strip, String.toList_ofList, String.toList_ofList, hkept,
    rdropWhile_append hlast]

theorem strip_ofList {w : List Char} (hfirst : ∀ c ∈ w.head?, isSpace c = false)
    (hlast : ∀ c ∈ w.getLast?, isSpace c = false) (hw : w ≠ []) :
    strip (String.ofList w) = String.ofList w := by
  have h := @strip_append w [] hfirst hlast hw
  rwa [List.append_nil, List.rdropWhile_nil, List.append_nil] at h
