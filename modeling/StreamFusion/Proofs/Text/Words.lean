import Mathlib.Data.List.Basic
import StreamFusion.Text.CodePoints

/-!
# Words

A word of a text is a stretch of characters without blanks that no further character belongs to:
before it and behind it the text ends, or there is a blank. Reading a text from left to right finds
exactly its words (`Text.mem_words_iff`), as a blank cuts a text into two parts and every word
stands in one of them (`Text.standsIn_cut`).
-/

namespace StreamFusion

namespace Text

/-- The text is at its end, or goes on with a blank. -/
def Breaks (rest : List Char) : Prop := ∀ c, rest.head? = some c → isBlank c = true

/-- The characters stand in the text as a word: there are some, none of them is a blank, and on
either side the text breaks. -/
def StandsIn (word text : List Char) : Prop :=
  word ≠ [] ∧ (∀ c ∈ word, isBlank c = false) ∧
    ∃ before after, text = before ++ word ++ after ∧ Breaks before.reverse ∧ Breaks after

/-- The word is one of the words of the text. -/
def IsWord (word text : String) : Prop := StandsIn word.toList text.toList

section Breaks

variable {first second : List Char}

theorem breaks_nil : Breaks [] := nofun

theorem breaks_cons {c : Char} (hblank : isBlank c = true) (rest : List Char) :
    Breaks (c :: rest) := by
  intro d hd
  rw [← Option.some.inj hd]
  exact hblank

theorem Breaks.append (h : Breaks first) (h' : Breaks second) : Breaks (first ++ second) := by
  cases first with
  | nil => exact h'
  | cons c rest => exact h

theorem Breaks.of_append (h : Breaks (first ++ second)) : Breaks first := by
  cases first with
  | nil => exact breaks_nil
  | cons c rest => exact h

/-- Where a text breaks and holds no blank, it ends. -/
theorem Breaks.eq_nil (h : Breaks first) (hsolid : ∀ c ∈ first, isBlank c = false) :
    first = [] := by
  cases first with
  | nil => rfl
  | cons c rest =>
    have hblank := h c rfl
    rw [hsolid c List.mem_cons_self] at hblank
    exact absurd hblank (by simp)

end Breaks

/-- A text without blanks is a word by itself, and has no other words. -/
theorem standsIn_solid {text : List Char} (hsolid : ∀ c ∈ text, isBlank c = false)
    (word : List Char) : StandsIn word text ↔ text ≠ [] ∧ word = text := by
  constructor
  · rintro ⟨hne, -, before, after, rfl, hbefore, hafter⟩
    have hnone : before.reverse = [] := hbefore.eq_nil fun c hc => hsolid c (by simp_all)
    have hnone' : after = [] := hafter.eq_nil fun c hc => hsolid c (by simp_all)
    obtain rfl := List.reverse_eq_nil_iff.1 hnone
    subst hnone'
    simpa using hne
  · rintro ⟨hne, rfl⟩
    exact ⟨hne, hsolid, [], [], by simp, breaks_nil, breaks_nil⟩

section Cut

variable {c : Char} (hblank : isBlank c = true) {word first second : List Char}
include hblank

theorem StandsIn.append_blank (h : StandsIn word first) : StandsIn word (first ++ c :: second) := by
  obtain ⟨hne, hsolid, before, after, rfl, hbefore, hafter⟩ := h
  exact ⟨hne, hsolid, before, after ++ c :: second, by simp, hbefore,
    hafter.append (breaks_cons hblank second)⟩

theorem StandsIn.blank_append (h : StandsIn word second) :
    StandsIn word (first ++ c :: second) := by
  obtain ⟨hne, hsolid, before, after, rfl, hbefore, hafter⟩ := h
  refine ⟨hne, hsolid, first ++ c :: before, after, by simp, ?_, hafter⟩
  rw [List.reverse_append, List.reverse_cons, List.append_assoc]
  exact hbefore.append (breaks_cons hblank _)

/-- A blank cuts a text into two parts, and every word of the text stands in one of them. -/
theorem standsIn_cut :
    StandsIn word (first ++ c :: second) ↔ StandsIn word first ∨ StandsIn word second := by
  refine ⟨?_, fun h => h.elim (·.append_blank hblank) (·.blank_append hblank)⟩
  rintro ⟨hne, hsolid, before, after, htext, hbefore, hafter⟩
  have hnot : c ∉ word := fun hmem => by
    rw [hsolid c hmem] at hblank
    exact absurd hblank (by simp)
  -- the blank is not in the word, so it stands before the word or behind it
  obtain ⟨between, hfirst, hsecond⟩ | ⟨between, hfirst, hsecond⟩ :=
    List.append_eq_append_iff.1 htext
  · cases between with
    | nil =>
      rw [List.append_nil] at hfirst
      exact .inl ⟨hne, hsolid, before, [], by rw [← hfirst, List.append_nil], hbefore, breaks_nil⟩
    | cons d between =>
      obtain ⟨rfl, rfl⟩ := List.cons.inj hsecond
      obtain ⟨inner, -, hinner⟩ | ⟨inner, rfl, hinner⟩ := List.append_eq_append_iff.1 hfirst
      · exact absurd (hinner ▸ List.mem_append_right inner List.mem_cons_self) hnot
      · cases inner with
        | nil =>
          have hword : c :: between = word := hinner
          exact absurd (hword ▸ List.mem_cons_self) hnot
        | cons d inner =>
          obtain ⟨rfl, rfl⟩ := List.cons.inj hinner
          rw [List.reverse_append, List.reverse_cons, List.append_assoc] at hbefore
          exact .inr ⟨hne, hsolid, inner, after, rfl, hbefore.of_append, hafter⟩
  · subst hfirst hsecond
    exact .inl ⟨hne, hsolid, before, between, rfl, hbefore, hafter.of_append⟩

end Cut

/-! ## Reading from left to right -/

theorem mem_wordsFrom_iff {word read text : List Char} (hread : ∀ c ∈ read, isBlank c = false) :
    word ∈ wordsFrom read text ↔ StandsIn word (read.reverse ++ text) := by
  -- what was read of the current word stands in front of the rest of the text
  induction text generalizing read with
  | nil =>
    rw [List.append_nil, standsIn_solid (by simpa using hread), wordsFrom]
    cases read with
    | nil => simp
    | cons c read => simp
  | cons c rest ih =>
    rw [wordsFrom]
    cases hblank : isBlank c with
    | false =>
      rw [if_neg (by simp), ih (List.forall_mem_cons.2 ⟨hblank, hread⟩), List.reverse_cons,
        List.append_assoc]
      rfl
    | true =>
      have hrest : word ∈ wordsFrom [] rest ↔ StandsIn word rest := ih nofun
      rw [if_pos rfl, standsIn_cut hblank, standsIn_solid (by simpa using hread), ← hrest]
      cases read with
      | nil => simp
      | cons c read => simp

/-- Splitting a text gives its words. -/
theorem mem_words_iff {word text : String} : word ∈ words text ↔ IsWord word text := by
  have hread : word.toList ∈ wordsFrom [] text.toList ↔ StandsIn word.toList text.toList :=
    mem_wordsFrom_iff nofun
  rw [IsWord, ← hread, words, List.mem_map]
  constructor
  · rintro ⟨found, hfound, rfl⟩
    rwa [String.toList_ofList]
  · exact fun hfound => ⟨word.toList, hfound, String.ofList_toList⟩

end Text

end StreamFusion
