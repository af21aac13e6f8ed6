import StreamFusion.Proofs.Text.Lowercase
import StreamFusion.Proofs.Text.Matching

/-!
# Queries that differ in case

Two queries with the same lower case have the same words in lower case. They need not mean the same:
how long a word is, and with it where it must stand, is counted before its lower case is made, and
U+0130 becomes two characters. They mean the same exactly if both are specific or neither is, and
each short word of one begins a short word of the other (`TextQuery.alike_iff`). Without U+0130 they
always do.
-/

namespace StreamFusion

namespace TextQuery

open Text

/-- One word of the query is three characters long. -/
def Specific (query : String) : Prop := ∃ word, IsWord word query ∧ 3 ≤ word.length

/-- The word must stand at the start of a field. -/
def ShortWord (word query : String) : Prop := IsWord word query ∧ word.length < 4

/-- In lower case, each short word of the first query begins a short word of the second one. -/
def ShortsBegin (query query' : String) : Prop :=
  ∀ word, ShortWord word query →
    ∃ word', ShortWord word' query' ∧ (lowercase word).toList <+: (lowercase word').toList

/-- For whatever fields, both queries are rejected or both accepted, and they match the same
elements. -/
def Alike (query query' : String) : Prop :=
  ∀ fields, (compile query fields).rejected = (compile query' fields).rejected ∧
    ∀ field, (compile query fields).accepts field = (compile query' fields).accepts field

variable {query query' : String}

theorem Alike.symm (h : Alike query query') : Alike query' query := fun fields =>
  ⟨(h fields).1.symm, fun field => ((h fields).2 field).symm⟩

theorem rejected_of_specific (h : Specific query ↔ Specific query') (fields : List String) :
    (compile query fields).rejected = (compile query' fields).rejected := by
  have hany : (sortedWords query).any (fun word => specificLength ≤ word.length) =
      (sortedWords query').any (fun word => specificLength ≤ word.length) := by
    rw [Bool.eq_iff_iff, List.any_eq_true, List.any_eq_true]
    simp only [mem_sortedWords_iff, decide_eq_true_eq]
    exact h
  rw [compile_rejected, compile_rejected, rejection?, rejection?, hany]

theorem Alike.specific_iff (h : Alike query query') : Specific query ↔ Specific query' := by
  have hsame : (compile query ["name"]).isRejected = (compile query' ["name"]).isRejected :=
    congrArg Option.isSome (h ["name"]).1
  have hspecific : ∀ q : String, (compile q ["name"]).isRejected = false ↔ Specific q := fun q =>
    isRejected_eq_false_iff.trans (and_iff_right (by simp))
  rw [← hspecific, ← hspecific, hsame]

/-! ## Words of queries with the same lower case -/

section SameLowercase

variable (h : lowercase query = lowercase query')
include h

theorem exists_word {word : String} (hword : IsWord word query) :
    ∃ word', IsWord word' query' ∧ lowercase word = lowercase word' := by
  have hlower : IsWord (lowercase word) (lowercase query) :=
    isWord_lowercase_iff.2 ⟨word, hword, rfl⟩
  rw [h] at hlower
  exact isWord_lowercase_iff.1 hlower

/-- If the short words of the second query begin short words of the first, the first asks for no
less than the second. -/
theorem asks_of_shortsBegin (hspecific : Specific query → Specific query')
    (hshorts : ShortsBegin query' query) {fields : List String} {field : String → Option String}
    (hasks : Asks query fields field) : Asks query' fields field := by
  obtain ⟨hfields, hlong, hfinds⟩ := hasks
  refine ⟨hfields, hspecific hlong, fun word' hword' => ?_⟩
  by_cases hshort : word'.length < 4
  · obtain ⟨word, ⟨hword, hlength⟩, hprefix⟩ := hshorts word' ⟨hword', hshort⟩
    obtain ⟨name, hname, hfound⟩ := hfinds word hword
    rw [Finds, if_pos hlength] at hfound
    refine ⟨name, hname, ?_⟩
    rw [Finds, if_pos hshort]
    exact hprefix.trans hfound
  · obtain ⟨word, hword, hsame⟩ := exists_word h.symm hword'
    obtain ⟨name, hname, hfound⟩ := hfinds word hword
    refine ⟨name, hname, ?_⟩
    rw [Finds, if_neg hshort, hsame]
    -- a word that is found at the start is also found anywhere
    unfold Finds at hfound
    split at hfound
    · exact hfound.isInfix
    · exact hfound

theorem alike_of_shortsBegin (hspecific : Specific query ↔ Specific query')
    (hshorts : Specific query → ShortsBegin query query' ∧ ShortsBegin query' query) :
    Alike query query' := by
  refine fun fields => ⟨rejected_of_specific hspecific fields, fun field => ?_⟩
  rw [Bool.eq_iff_iff, accepts_iff_asks, accepts_iff_asks]
  constructor
  · intro hasks
    exact asks_of_shortsBegin h hspecific.1 (hshorts hasks.2.1).2 hasks
  · intro hasks
    exact asks_of_shortsBegin h.symm hspecific.2 (hshorts (hspecific.2 hasks.2.1)).1 hasks

end SameLowercase

/-! ## An element that shows where the words must stand -/

/-- The text of a field that is named after a word: the word, behind a blank if it is a long one. -/
def shown (name : String) : Option String :=
  some (if name.length < 4 then name else String.ofList (' ' :: name.toList))

theorem asks_shown (hspecific : Specific query) : Asks query (words query) shown := by
  obtain ⟨long, hlong, hlength⟩ := hspecific
  refine ⟨List.ne_nil_of_mem (mem_words_iff.2 hlong), ⟨long, hlong, hlength⟩, fun word hword => ?_⟩
  refine ⟨word, mem_words_iff.2 hword, ?_⟩
  by_cases hshort : word.length < 4
  · rw [Finds, if_pos hshort, shown, if_pos hshort]
    exact List.prefix_refl _
  · rw [Finds, if_neg hshort, shown, if_neg hshort, Option.getD_some,
      lowercase_blank_append (by decide)]
    exact (List.suffix_cons ' ' _).isInfix

/-- A short word that is found in such a field begins a short word. -/
theorem shortWord_of_finds_shown {word name : String} (hword : ShortWord word query)
    (hfound : Finds word ((shown name).getD "")) :
    name.length < 4 ∧ (lowercase word).toList <+: (lowercase name).toList := by
  rw [Finds, if_pos hword.2] at hfound
  by_cases hshort : name.length < 4
  · rw [shown, if_pos hshort] at hfound
    exact ⟨hshort, hfound⟩
  · rw [shown, if_neg hshort, Option.getD_some, lowercase_blank_append (by decide),
      toList_lowercase] at hfound
    -- the field begins with a blank, and the word does not
    obtain ⟨hne, hsolid, -⟩ := hword.1
    rcases List.prefix_cons_iff.1 hfound with hnil | ⟨rest, hrest, -⟩
    · exact absurd (lowerFrom_eq_nil_iff.1 hnil) hne
    · have hblank := lowerFrom_solid hsolid [] ' ' (by rw [hrest]; exact List.mem_cons_self)
      exact absurd hblank (by decide)

theorem Alike.shortsBegin (h : Alike query query') (hspecific : Specific query) :
    ShortsBegin query query' := by
  intro word hword
  have hasks : Asks query' (words query') shown := asks_shown (h.specific_iff.1 hspecific)
  rw [← accepts_iff_asks, ← (h (words query')).2 shown, accepts_iff_asks] at hasks
  obtain ⟨name, hname, hfound⟩ := hasks.2.2 word hword.1
  obtain ⟨hlength, hprefix⟩ := shortWord_of_finds_shown hword hfound
  exact ⟨name, ⟨mem_words_iff.1 hname, hlength⟩, hprefix⟩

/-! ## Queries without U+0130 -/

theorem length_of_lowercase_eq {word word' : String} (hword : IsWord word query)
    (hword' : IsWord word' query') (hplain : '\u0130' ∉ query.toList)
    (hplain' : '\u0130' ∉ query'.toList) (h : lowercase word = lowercase word') :
    word.length = word'.length := by
  have hnot : ∀ {w q : String}, IsWord w q → '\u0130' ∉ q.toList → '\u0130' ∉ w.toList := by
    rintro w q ⟨-, -, before, after, hq, -⟩ hplain hmem
    rw [hq] at hplain
    exact hplain (List.mem_append_left _ (List.mem_append_right _ hmem))
  rw [← length_lowercase (hnot hword hplain), h, length_lowercase (hnot hword' hplain')]

section Plain

variable (h : lowercase query = lowercase query') (hplain : '\u0130' ∉ query.toList)
  (hplain' : '\u0130' ∉ query'.toList)
include h hplain hplain'

theorem specific_of_plain (hspecific : Specific query) : Specific query' := by
  obtain ⟨word, hword, hlength⟩ := hspecific
  obtain ⟨word', hword', hsame⟩ := exists_word h hword
  rw [length_of_lowercase_eq hword hword' hplain hplain' hsame] at hlength
  exact ⟨word', hword', hlength⟩

theorem shortsBegin_of_plain : ShortsBegin query query' := by
  intro word ⟨hword, hlength⟩
  obtain ⟨word', hword', hsame⟩ := exists_word h hword
  rw [length_of_lowercase_eq hword hword' hplain hplain' hsame] at hlength
  exact ⟨word', ⟨hword', hlength⟩, by rw [hsame]⟩

end Plain

/-- When two queries with the same lower case mean the same: exactly if both are specific or neither
is, and the short words of each begin short words of the other. So they do if neither holds a
U+0130. -/
theorem alike_iff (h : lowercase query = lowercase query') :
    (Alike query query' ↔ (Specific query ↔ Specific query') ∧
      (Specific query → ShortsBegin query query' ∧ ShortsBegin query' query)) ∧
    ('\u0130' ∉ query.toList → '\u0130' ∉ query'.toList → Alike query query') := by
  refine ⟨⟨fun halike => ?_, fun hboth => alike_of_shortsBegin h hboth.1 hboth.2⟩, ?_⟩
  · refine ⟨halike.specific_iff, fun hspecific => ⟨halike.shortsBegin hspecific, ?_⟩⟩
    exact halike.symm.shortsBegin (halike.specific_iff.1 hspecific)
  · intro hplain hplain'
    refine alike_of_shortsBegin h
      ⟨specific_of_plain h hplain hplain', specific_of_plain h.symm hplain' hplain⟩ fun _ => ?_
    exact ⟨shortsBegin_of_plain h hplain hplain', shortsBegin_of_plain h.symm hplain' hplain⟩

/-- Two spellings without U+0130 that differ in the case of each letter. -/
theorem alike_iff_spellings : Alike "Älice AB" "äLICE ab" :=
  (alike_iff (by decide +kernel)).2 (by decide) (by decide)

/-- The lower case of U+0130 and two letters has four characters. The first query asks for it at the
start, the second one, which is in lower case already, anywhere. With one letter only the second one
is specific. -/
theorem not_alike_dotted :
    lowercase "\u0130ab" = lowercase "i\u0307ab" ∧
    (compile "\u0130ab" ["name"]).rejected = none ∧
    (compile "i\u0307ab" ["name"]).rejected = none ∧
    (compile "\u0130ab" ["name"]).accepts (fun _ => some "xi\u0307ab") = false ∧
    (compile "i\u0307ab" ["name"]).accepts (fun _ => some "xi\u0307ab") = true ∧
    lowercase "\u0130b" = lowercase "i\u0307b" ∧
    (compile "\u0130b" ["name"]).rejected = some .notSpecific ∧
    (compile "i\u0307b" ["name"]).rejected = none := by
  decide +kernel

end TextQuery

end StreamFusion
