import SwedeSweets.Runtime
import Mathlib.Data.List.Basic

namespace SwedeSweets

/-!
# Collapsed whitespace

`" ".join(s.split())` puts single spaces between the words of a text.  Its result has the same
words (`splitChars_intercalate`) and no space at either end, so normalizing twice changes nothing
(`collapse_collapse`, `strip_collapse`).
-/

namespace Text

/-- A word is not empty and has no whitespace. -/
def IsWord (w : List Char) : Prop := w ≠ [] ∧ ∀ c ∈ w, isSpace c = false

/-- Splitting yields words; the word being read has no whitespace either. -/
theorem isWord_of_mem_splitChars {word cs : List Char} (hword : ∀ c ∈ word, isSpace c = false) :
    ∀ w ∈ splitChars word cs, IsWord w := by
  have hread : word ≠ [] → IsWord word.reverse := fun hne =>
    ⟨List.reverse_ne_nil_iff.mpr hne, fun c hc => hword c (List.mem_reverse.mp hc)⟩
  induction cs generalizing word with
  | nil =>
    intro w hw
    unfold splitChars at hw
    by_cases hnil : word = []
    · rw [if_pos hnil] at hw
      cases hw
    · rw [if_neg hnil, List.mem_singleton] at hw
      exact hw ▸ hread hnil
  | cons c cs ih =>
    intro w hw
    have hnone : ∀ c ∈ ([] : List Char), isSpace c = false := fun c hc => absurd hc List.not_mem_nil
    unfold splitChars at hw
    -- a blank ends the word read so far; anything else extends it
    by_cases hc : isSpace c = true
    · rw [if_pos hc] at hw
      by_cases hnil : word = []
      · rw [if_pos hnil] at hw
        exact ih hnone (fun hne => absurd rfl hne) w hw
      · rw [if_neg hnil] at hw
        rcases List.mem_cons.mp hw with rfl | hw
        · exact hread hnil
        · exact ih hnone (fun hne => absurd rfl hne) w hw
    · rw [if_neg hc] at hw
      have hcons : ∀ d ∈ c :: word, isSpace d = false :=
        List.forall_mem_cons.mpr ⟨Bool.eq_false_iff.mpr hc, hword⟩
      exact ih hcons (fun _ => ⟨List.reverse_ne_nil_iff.mpr (List.cons_ne_nil _ _),
        fun d hd => hcons d (List.mem_reverse.mp hd)⟩) w hw

/-- A run without whitespace goes into the word being read. -/
theorem splitChars_append {w : List Char} (hw : ∀ c ∈ w, isSpace c = false)
    (word rest : List Char) :
    splitChars word (w ++ rest) = splitChars (w.reverse ++ word) rest := by
  induction w generalizing word with
  | nil => rfl
  | cons c w ih =>
    have hc : ¬ isSpace c = true := by simp [hw c (List.mem_cons_self ..)]
    rw [List.cons_append, splitChars, if_neg hc,
      ih (fun d hd => hw d (List.mem_cons_of_mem _ hd)), List.reverse_cons, List.append_assoc,
      List.singleton_append]

/-- Splitting the joined words gives the words back. -/
theorem splitChars_intercalate {ws : List (List Char)} (hws : ∀ w ∈ ws, IsWord w) :
    splitChars [] (List.intercalate [' '] ws) = ws := by
  induction ws with
  | nil => rfl
  | cons w ws ih =>
    obtain ⟨⟨hne, hw⟩, hrest⟩ := List.forall_mem_cons.mp hws
    have hread : w.reverse ++ [] ≠ [] := by
      rw [List.append_nil]
      exact List.reverse_ne_nil_iff.mpr hne
    -- the last word is ended by the end of the text, the others by a blank
    cases ws with
    | nil =>
      have hone : List.intercalate [' '] [w] = w ++ [] := by simp
      rw [hone, splitChars_append hw, splitChars, if_neg hread, List.append_nil,
        List.reverse_reverse]
    | cons v vs =>
      have htwo : List.intercalate [' '] (w :: v :: vs)
          = w ++ ' ' :: List.intercalate [' '] (v :: vs) := by simp
      have hspace : isSpace ' ' = true := rfl
      rw [htwo, splitChars_append hw, splitChars, if_pos hspace, if_neg hread, ih hrest,
        List.append_nil, List.reverse_reverse]

/-- Neither end is whitespace. -/
def Trimmed (cs : List Char) : Prop :=
  (∀ c ∈ cs.head?, isSpace c = false) ∧ ∀ c ∈ cs.getLast?, isSpace c = false

/-- Nothing is cut off a list that does not begin with a blank. -/
theorem dropWhile_eq_self {cs : List Char} (h : ∀ c ∈ cs.head?, isSpace c = false) :
    cs.dropWhile isSpace = cs := by
  cases cs with
  | nil => rfl
  | cons c cs => exact List.dropWhile_cons_of_neg (by simp [h c rfl])

/-- Trimmed text is left alone. -/
theorem stripChars_of_trimmed {cs : List Char} (h : Trimmed cs) : stripChars cs = cs := by
  unfold stripChars
  rw [dropWhile_eq_self h.1, dropWhile_eq_self, List.reverse_reverse]
  intro c hc
  rw [List.head?_reverse] at hc
  exact h.2 c hc

/-- After the blanks are cut off, the text does not begin with one. -/
theorem isSpace_head?_dropWhile (cs : List Char) :
    ∀ c ∈ (cs.dropWhile isSpace).head?, isSpace c = false := by
  intro c hc
  have hne : cs.dropWhile isSpace ≠ [] := by
    intro hnil
    rw [hnil] at hc
    cases hc
  rw [List.head?_eq_some_head hne, Option.mem_some_iff] at hc
  exact hc ▸ List.head_dropWhile_not isSpace hne

/-- Stripped text is trimmed. -/
theorem trimmed_stripChars (cs : List Char) : Trimmed (stripChars cs) := by
  unfold stripChars
  generalize hys : cs.dropWhile isSpace = ys
  refine ⟨fun c hc => ?_, fun c hc => ?_⟩
  · -- what is cut off at the end leaves the head alone
    have hsplit : ys = (ys.reverse.dropWhile isSpace).reverse
        ++ (ys.reverse.takeWhile isSpace).reverse := by
      rw [← List.reverse_append, List.takeWhile_append_dropWhile, List.reverse_reverse]
    have hhead : c ∈ ys.head? := by
      rw [hsplit, List.head?_append]
      rw [Option.mem_def] at hc ⊢
      rw [hc]
      rfl
    rw [← hys] at hhead
    exact isSpace_head?_dropWhile cs c hhead
  · rw [List.getLast?_reverse] at hc
    exact isSpace_head?_dropWhile _ c hc

/-- Stripping twice is stripping once. -/
theorem strip_strip (s : String) : strip (strip s) = strip s := by
  unfold strip
  rw [String.toList_ofList, stripChars_of_trimmed (trimmed_stripChars _)]

/-- A word is trimmed. -/
theorem trimmed_of_isWord {w : List Char} (h : IsWord w) : Trimmed w :=
  ⟨fun c hc => h.2 c (List.mem_of_mem_head? hc), fun c hc => h.2 c (List.mem_of_mem_getLast? hc)⟩

/-- Joined words start with the first and end with the last. -/
theorem trimmed_intercalate {ws : List (List Char)} (hws : ∀ w ∈ ws, IsWord w) :
    Trimmed (List.intercalate [' '] ws) := by
  induction ws with
  | nil => exact ⟨fun _ hc => absurd hc (Option.not_mem_none _),
      fun _ hc => absurd hc (Option.not_mem_none _)⟩
  | cons w ws ih =>
    obtain ⟨hw, hrest⟩ := List.forall_mem_cons.mp hws
    cases ws with
    | nil =>
      have hone : List.intercalate [' '] [w] = w := by simp
      rw [hone]
      exact trimmed_of_isWord hw
    | cons v vs =>
      have htwo : List.intercalate [' '] (w :: v :: vs)
          = w ++ ' ' :: List.intercalate [' '] (v :: vs) := by simp
      obtain ⟨d, ds, rfl⟩ := List.exists_cons_of_ne_nil hw.1
      have hv : List.intercalate [' '] (v :: vs) ≠ [] := by
        obtain ⟨e, es, rfl⟩ := List.exists_cons_of_ne_nil (hrest v (List.mem_cons_self ..)).1
        cases vs <;> simp
      rw [htwo]
      -- the text begins as its first word and ends as its last one
      refine ⟨fun c hc => hw.2 c ?_, fun c hc => (ih hrest).2 c ?_⟩
      · rw [List.cons_append, List.head?_cons, Option.mem_def, Option.some.injEq] at hc
        exact hc ▸ List.mem_cons_self ..
      · obtain ⟨e, es, he⟩ := List.exists_cons_of_ne_nil hv
        rw [he] at hc ⊢
        rwa [List.getLast?_append_of_ne_nil _ (List.cons_ne_nil _ _), List.getLast?_cons_cons] at hc

/-- The words of a text, with one blank between them. -/
theorem toList_collapse (s : String) :
    (collapse s).toList = List.intercalate [' '] (splitChars [] s.toList) := by
  unfold collapse
  rw [String.toList_intercalate, List.map_map]
  have hid : String.toList ∘ String.ofList = id := funext (fun _ => String.toList_ofList)
  rw [hid, List.map_id]
  rfl

/-- Splitting a text yields words. -/
theorem isWord_split (s : String) : ∀ w ∈ splitChars [] s.toList, IsWord w :=
  isWord_of_mem_splitChars (fun _ hc => absurd hc List.not_mem_nil)

/-- Collapsing twice is collapsing once. -/
theorem collapse_collapse (s : String) : collapse (collapse s) = collapse s := by
  have hwords : splitChars [] (collapse s).toList = splitChars [] s.toList := by
    rw [toList_collapse, splitChars_intercalate (isWord_split s)]
  show String.intercalate " " ((splitChars [] (collapse s).toList).map String.ofList) = _
  rw [hwords]
  rfl

/-- Collapsed text is stripped. -/
theorem strip_collapse (s : String) : strip (collapse s) = collapse s := by
  unfold strip
  rw [stripChars_of_trimmed, String.ofList_toList]
  rw [toList_collapse]
  exact trimmed_intercalate (isWord_split s)

/-- Normalizing twice is normalizing once. -/
theorem collapse_strip_idem (s : String) :
    collapse (strip (collapse (strip s))) = collapse (strip s) := by
  rw [strip_collapse, collapse_collapse]

end Text

end SwedeSweets
