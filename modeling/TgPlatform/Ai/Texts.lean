import Mathlib.Data.List.TakeWhile
import TgPlatform.Ai.Callbacks
import TgPlatform.Lib.Strip

/-! # The text of a reply

A reply is the texts of its segments, joined in the order of their sequence
numbers. A segment without text leaves no trace in it, and neither does the text
that stands in for an empty reply.
-/

namespace TgPlatform

theorem strip_append_eq_empty {s t : String} : strip (s ++ t) = "" ↔ strip s = "" ∧ strip t = "" := by
  simp only [strip_eq_empty, String.toList_append, List.mem_append]
  constructor
  · intro h
    exact ⟨fun c hc => h c (.inl hc), fun c hc => h c (.inr hc)⟩
  · rintro ⟨hs, ht⟩ c (hc | hc)
    · exact hs c hc
    · exact ht c hc

theorem strip_lines_eq_empty (l : List String) :
    strip ("\n".intercalate l) = "" ↔ ∀ t ∈ l, strip t = "" := by
  induction l with
  | nil => simp [strip_eq_empty]
  | cons t l ih =>
    cases l with
    | nil => simp
    | cons u l =>
      have hline : strip "\n" = "" := by decide
      rw [String.intercalate_cons_cons, strip_append_eq_empty, strip_append_eq_empty, ih,
        List.forall_mem_cons]
      simp [hline]

def allTexts (segments : List AiCallback) : Option (List Json) :=
  (segments.mapM segmentTexts).map List.flatten

def joinedTexts (segments : List AiCallback) : Option String :=
  (allTexts segments).bind fun texts => (joinStrings "\n" texts).map strip

def inSequence (callbacks : List AiCallback) : List AiCallback :=
  callbacks.insertionSort fun x y => x.sequence ≤ y.sequence

theorem assemble_eq (callbacks : List AiCallback) (fallback : String) : assemble callbacks fallback =
    (joinedTexts (inSequence callbacks)).map fun text => if text = "" then fallback else text := by
  unfold assemble joinedTexts allTexts inSequence
  dsimp only
  cases List.mapM segmentTexts _ with
  | none => rfl
  | some texts =>
    simp only [Option.bind_eq_bind, Option.bind_some, Option.map_some]
    cases joinStrings "\n" texts.flatten <;> rfl

theorem allTexts_cons (c : AiCallback) (segments : List AiCallback) : allTexts (c :: segments) =
    (segmentTexts c).bind fun texts => (allTexts segments).map (texts ++ ·) := by
  unfold allTexts
  rw [List.mapM_cons]
  cases segmentTexts c with
  | none => rfl
  | some texts => cases segments.mapM segmentTexts <;> rfl

theorem allTexts_filter {p : AiCallback → Bool} {segments : List AiCallback}
    (h : ∀ c ∈ segments, p c = false → segmentTexts c = some []) :
    allTexts (segments.filter p) = allTexts segments := by
  induction segments with
  | nil => rfl
  | cons c segments ih =>
    have ih := ih fun d hd => h d (List.mem_cons_of_mem c hd)
    cases hp : p c with
    | true => rw [List.filter_cons_of_pos hp, allTexts_cons, allTexts_cons, ih]
    | false =>
      rw [List.filter_cons_of_neg (by simp [hp]), allTexts_cons, h c (List.mem_cons_self ..) hp, ih]
      cases allTexts segments <;> rfl

theorem mem_allTexts {c : AiCallback} {segments : List AiCallback} {texts own : List Json}
    (hall : allTexts segments = some texts) (hc : c ∈ segments) (hown : segmentTexts c = some own) :
    own ⊆ texts := by
  induction segments generalizing texts with
  | nil => cases hc
  | cons d segments ih =>
    rw [allTexts_cons] at hall
    obtain ⟨first, hfirst, hmap⟩ := Option.bind_eq_some_iff.mp hall
    obtain ⟨rest, hrest, rfl⟩ := Option.map_eq_some_iff.mp hmap
    intro text htext
    rcases List.mem_cons.mp hc with rfl | hc
    · rw [hown] at hfirst
      cases hfirst
      exact List.mem_append_left _ htext
    · exact List.mem_append_right _ (ih hrest hc htext)

theorem mapM_str? (texts : List String) : (texts.map Json.str).mapM Json.str? = some texts := by
  induction texts with
  | nil => rfl
  | cons t texts ih =>
    rw [List.map_cons, List.mapM_cons, ih]
    rfl

theorem eq_of_mapM_str? {values : List Json} {texts : List String}
    (h : values.mapM Json.str? = some texts) : values = texts.map Json.str := by
  induction values generalizing texts with
  | nil =>
    cases h
    rfl
  | cons v values ih =>
    cases v with
    | str t =>
      simp only [List.mapM_cons, Json.str?, Option.bind_eq_bind, Option.bind_some,
        Option.pure_def, Option.bind_eq_some_iff, Option.some.injEq] at h
      obtain ⟨rest, hrest, rfl⟩ := h
      rw [List.map_cons, ← ih hrest]
    | _ => simp [Json.str?] at h

theorem joinStrings_str (sep : String) (texts : List String) :
    joinStrings sep (texts.map Json.str) = some (sep.intercalate texts) := by
  unfold joinStrings
  rw [mapM_str?, Option.map_some]

theorem mem_of_joinStrings {sep joined : String} {values : List Json}
    (h : joinStrings sep values = some joined) :
    ∃ texts, values = texts.map Json.str ∧ joined = sep.intercalate texts := by
  unfold joinStrings at h
  obtain ⟨texts, htexts, rfl⟩ := Option.map_eq_some_iff.mp h
  exact ⟨texts, eq_of_mapM_str? htexts, rfl⟩

theorem get_text_of_plain {part : Json} {t : String} (hplain : isPlain part = true)
    (htext : part.field "text" (.str "") = .str t) :
    ∃ v, part.get "text" = some v ∧ (t = "" ∧ v.truthy = false ∨ t ≠ "" ∧ v = .str t) := by
  cases part with
  | dict entries =>
    refine ⟨(entries.lookup "text").getD .null, rfl, ?_⟩
    cases hentry : entries.lookup "text" with
    | none =>
      simp only [Json.field, hentry, Option.getD_none, Json.str.injEq] at htext
      exact .inl ⟨htext.symm, rfl⟩
    | some v =>
      simp only [Json.field, hentry, Option.getD_some] at htext
      subst htext
      by_cases hempty : t = ""
      · subst hempty
        exact .inl ⟨rfl, rfl⟩
      · exact .inr ⟨hempty, rfl⟩
  | _ => cases hplain

/-- The text that stands in for an empty reply is a text of one of its segments. -/
theorem fallbackText_empty {c : AiCallback} {segments : List AiCallback} {fallback : String}
    (hc : c ∈ segments) (hfallback : fallbackText c.payload = some fallback)
    (hempty : joinedTexts segments = some "") : fallback = "" := by
  obtain ⟨texts, hall, hjoined⟩ := Option.bind_eq_some_iff.mp hempty
  obtain ⟨joined, hjoined, hblank⟩ := Option.map_eq_some_iff.mp hjoined
  obtain ⟨lines, rfl, rfl⟩ := mem_of_joinStrings hjoined
  rw [strip_lines_eq_empty] at hblank
  have hsegment : segmentTexts c = (messageParts c.payload).map fun parts =>
      ((parts.filter isPlain).filterMap fun part => part.get "text").filter Json.truthy := by
    unfold segmentTexts
    cases messageParts c.payload <;> rfl
  unfold fallbackText at hfallback
  obtain ⟨parts, hparts, hfallback⟩ := Option.bind_eq_some_iff.mp hfallback
  obtain ⟨joined, hjoined, hfallback⟩ := Option.bind_eq_some_iff.mp hfallback
  obtain ⟨own, hown, rfl⟩ := mem_of_joinStrings hjoined
  cases hfallback
  rw [strip_lines_eq_empty]
  intro t ht
  obtain ⟨part, hpart, htext⟩ := List.mem_map.mp (hown ▸ List.mem_map_of_mem ht)
  obtain ⟨v, hget, ⟨rfl, -⟩ | ⟨hne, rfl⟩⟩ := get_text_of_plain (List.mem_filter.mp hpart).2 htext
  · rfl
  · have hkept : Json.str t ∈ ((parts.filter isPlain).filterMap fun part =>
        part.get "text").filter Json.truthy := by
      refine List.mem_filter.mpr ⟨List.mem_filterMap.mpr ⟨part, hpart, hget⟩, ?_⟩
      simpa [Json.truthy] using hne
    rw [hparts, Option.map_some] at hsegment
    have hline := mem_allTexts hall hc hsegment hkept
    obtain ⟨u, hu, heq⟩ := List.mem_map.mp hline
    cases heq
    exact hblank t hu

/-! ## Plain parts -/

def plainTexts (payload : Json) : Option (List String) := do
  let parts ← messageParts payload
  ((parts.filter isPlain).map fun part => part.field "text" (.str "")).mapM Json.str?

theorem plainTexts_eq_some {payload : Json} {texts : List String} (h : plainTexts payload = some texts) :
    ∃ parts, messageParts payload = some parts ∧
      (parts.filter isPlain).map (fun part => part.field "text" (.str "")) = texts.map Json.str := by
  obtain ⟨parts, hparts, h⟩ := Option.bind_eq_some_iff.mp h
  exact ⟨parts, hparts, eq_of_mapM_str? h⟩

theorem fallbackText_of_plain {payload : Json} {texts : List String}
    (h : plainTexts payload = some texts) :
    fallbackText payload = some (strip ("\n".intercalate texts)) := by
  obtain ⟨parts, hparts, htexts⟩ := plainTexts_eq_some h
  unfold fallbackText
  simp only [hparts, htexts, joinStrings_str, Option.bind_eq_bind, Option.bind_some, Option.pure_def]

theorem segmentTexts_of_plain {c : AiCallback} {texts : List String}
    (h : plainTexts c.payload = some texts) :
    segmentTexts c = some ((texts.filter fun t => t ≠ "").map Json.str) := by
  obtain ⟨parts, hparts, htexts⟩ := plainTexts_eq_some h
  unfold segmentTexts
  simp only [hparts, Option.bind_eq_bind, Option.bind_some, Option.pure_def, Option.some.injEq]
  have hplain : ∀ part ∈ parts.filter isPlain, isPlain part = true := fun part hpart =>
    (List.mem_filter.mp hpart).2
  generalize parts.filter isPlain = plain at htexts hplain
  clear h
  induction plain generalizing texts with
  | nil =>
    obtain rfl := List.map_eq_nil_iff.mp htexts.symm
    rfl
  | cons part plain ih =>
    cases texts with
    | nil => cases htexts
    | cons t texts =>
      obtain ⟨htext, hrest⟩ := List.cons.inj htexts
      obtain ⟨v, hget, hv⟩ := get_text_of_plain (hplain part List.mem_cons_self) htext
      have hrest := ih hrest fun part hpart => hplain part (List.mem_cons_of_mem _ hpart)
      rw [List.filterMap_cons_some (f := fun part : Json => part.get "text") hget]
      rcases hv with ⟨rfl, hfalse⟩ | ⟨hne, rfl⟩
      · rw [List.filter_cons_of_neg (by simp [hfalse]), List.filter_cons_of_neg (by simp)]
        exact hrest
      · rw [List.filter_cons_of_pos (by simpa [Json.truthy] using hne),
          List.filter_cons_of_pos (by simpa using hne), List.map_cons, hrest]

theorem joinedTexts_of_plain {segments : List AiCallback} {texts : List (List String)}
    (h : List.Forall₂ (fun c t => plainTexts c.payload = some t) segments texts) :
    joinedTexts segments =
      some (strip ("\n".intercalate (texts.flatten.filter fun t => t ≠ ""))) := by
  have hall : allTexts segments = some ((texts.flatten.filter fun t => t ≠ "").map Json.str) := by
    induction h with
    | nil => rfl
    | cons hc _ ih =>
      rw [allTexts_cons, segmentTexts_of_plain hc, ih, Option.bind_some, Option.map_some,
        List.flatten_cons, List.filter_append, List.map_append]
  rw [joinedTexts, hall, Option.bind_some, joinStrings_str, Option.map_some]

end TgPlatform
