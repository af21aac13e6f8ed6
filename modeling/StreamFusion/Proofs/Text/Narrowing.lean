import StreamFusion.Proofs.Text.Matching

/-!
# Longer queries and more fields

A query that is extended behind a blank has the words of both parts, each with the rule that it had
before (`TextQuery.tokens_extend_perm`), so it asks for what the query asks, and for the other words
besides (`TextQuery.accepts_extend_iff`). With more fields, a word may be found in more places. In
neither way is an accepted query rejected (`TextQuery.narrows_and_widens`).
-/

namespace StreamFusion

namespace Text

/-- A blank cuts the reading of a text: the words of the first part are finished there, and reading
begins anew behind it. -/
theorem wordsFrom_cut {c : Char} (hblank : isBlank c = true) (read first second : List Char) :
    wordsFrom read (first ++ c :: second) = wordsFrom read first ++ wordsFrom [] second := by
  -- on the first part, as it is read; the word under way differs from character to character
  induction first generalizing read with
  | nil =>
    have hcut : wordsFrom read (c :: second) =
        if read.isEmpty then wordsFrom [] second else read.reverse :: wordsFrom [] second := by
      rw [wordsFrom, if_pos hblank]
    rw [List.nil_append, hcut, wordsFrom]
    split
    · rw [List.nil_append]
    · rw [List.singleton_append]
  | cons d first ih =>
    rw [List.cons_append, wordsFrom, wordsFrom]
    split
    · split
      · exact ih []
      · rw [ih [], List.cons_append]
    · exact ih (d :: read)

/-- The words of two texts that are joined by a space. -/
theorem words_append_space (first second : String) :
    words (first ++ " " ++ second) = words first ++ words second := by
  have hspace : isBlank ' ' = true := by decide
  have htext : (first ++ " " ++ second).toList = first.toList ++ ' ' :: second.toList := by
    rw [String.toList_append, String.toList_append, List.append_assoc]
    rfl
  rw [words, htext, wordsFrom_cut hspace, List.map_append]
  rfl

theorem isWord_append_space {word first second : String} :
    IsWord word (first ++ " " ++ second) ↔ IsWord word first ∨ IsWord word second := by
  rw [← mem_words_iff, words_append_space, List.mem_append, mem_words_iff, mem_words_iff]

end Text

namespace TextQuery

open Text

/-! ## What a query asks for -/

/-- The tokens of a query are those of its words, in some order. -/
theorem tokens_perm (query : String) (fields : List String) :
    (compile query fields).tokens.Perm ((words query).map TokenRule.ofWord) := by
  unfold compile sortedWords
  exact (List.mergeSort_perm _ _).map TokenRule.ofWord

/-- An extended query has the tokens of both parts, in some order: a token keeps its rule. -/
theorem tokens_extend_perm (query more : String) (fields : List String) :
    (compile (query ++ " " ++ more) fields).tokens.Perm
      ((compile query fields).tokens ++ (compile more fields).tokens) := by
  have hall := tokens_perm (query ++ " " ++ more) fields
  rw [words_append_space, List.map_append] at hall
  exact hall.trans ((tokens_perm query fields).append (tokens_perm more fields)).symm

/-- An accepted query that is extended asks for what it asked, and for the other words. -/
theorem accepts_extend_iff {query : String} {fields : List String}
    (h : (compile query fields).isRejected = false) (more : String)
    (field : String → Option String) :
    (compile (query ++ " " ++ more) fields).accepts field = true ↔
      (compile query fields).accepts field = true ∧
        ∀ word, IsWord word more → ∃ name ∈ fields, Finds word ((field name).getD "") := by
  obtain ⟨hfields, long, hlong, hlength⟩ := isRejected_eq_false_iff.1 h
  rw [accepts_iff_asks, accepts_iff_asks]
  unfold Asks
  simp only [isWord_append_space, or_imp, forall_and]
  constructor
  · rintro ⟨-, -, hquery, hmore⟩
    exact ⟨⟨hfields, ⟨long, hlong, hlength⟩, hquery⟩, hmore⟩
  · rintro ⟨⟨-, -, hquery⟩, hmore⟩
    exact ⟨hfields, ⟨long, .inl hlong, hlength⟩, hquery, hmore⟩

/-- What a query finds in some fields, it finds in more fields. -/
theorem Asks.mono_fields {query : String} {fields others : List String}
    {field : String → Option String} (h : Asks query fields field) (hsubset : fields ⊆ others) :
    Asks query others field := by
  obtain ⟨hfields, hlong, hfinds⟩ := h
  obtain ⟨name, hname⟩ := List.exists_mem_of_ne_nil fields hfields
  refine ⟨List.ne_nil_of_mem (hsubset hname), hlong, ?_⟩
  intro word hword
  obtain ⟨found, hfound, htext⟩ := hfinds word hword
  exact ⟨found, hsubset hfound, htext⟩

/-! ## Rejections -/

section Accepted

variable {query : String} {fields : List String} (h : (compile query fields).isRejected = false)
include h

theorem isRejected_extend (more : String) :
    (compile (query ++ " " ++ more) fields).isRejected = false := by
  obtain ⟨hfields, long, hlong, hlength⟩ := isRejected_eq_false_iff.1 h
  exact isRejected_eq_false_iff.2 ⟨hfields, long, isWord_append_space.2 (.inl hlong), hlength⟩

theorem isRejected_more_fields (others : List String) :
    (compile query (fields ++ others)).isRejected = false := by
  obtain ⟨hfields, hlong⟩ := isRejected_eq_false_iff.1 h
  exact isRejected_eq_false_iff.2 ⟨List.append_ne_nil_of_left_ne_nil hfields others, hlong⟩

end Accepted

/-- An accepted query that is extended behind a space is accepted, and so it is with more fields. The
extended query has all tokens of the query, with their rules, and those of the extension: of the
elements that the query matches it matches those in which the other words are found too. With more
fields the query matches all that it matched. -/
theorem narrows_and_widens {query : String} {fields : List String}
    (h : (compile query fields).isRejected = false) (more : String) (others : List String) :
    (compile (query ++ " " ++ more) fields).isRejected = false ∧
    (compile query (fields ++ others)).isRejected = false ∧
    (compile (query ++ " " ++ more) fields).tokens.Perm
      ((compile query fields).tokens ++ (compile more fields).tokens) ∧
    ∀ field,
      ((compile (query ++ " " ++ more) fields).accepts field = true ↔
        (compile query fields).accepts field = true ∧
          ∀ word, IsWord word more → ∃ name ∈ fields, Finds word ((field name).getD "")) ∧
      ((compile query fields).accepts field = true →
        (compile query (fields ++ others)).accepts field = true) := by
  refine ⟨isRejected_extend h more, isRejected_more_fields h others,
    tokens_extend_perm query more fields, ?_⟩
  intro field
  refine ⟨accepts_extend_iff h more field, ?_⟩
  intro haccepts
  rw [accepts_iff_asks] at haccepts ⊢
  exact haccepts.mono_fields (List.subset_append_left fields others)

/-- The extension is rejected by itself, and begins and ends with blanks of other kinds. -/
theorem narrows_and_widens_short_word :
    (compile "alice" ["name"]).isRejected = false ∧
    (compile "\u3000ab\u00a0" ["name"]).isRejected = true ∧
    (compile ("alice" ++ " " ++ "\u3000ab\u00a0") ["name"]).isRejected = false ∧
    ∀ field, (compile ("alice" ++ " " ++ "\u3000ab\u00a0") ["name"]).accepts field = true →
      (compile "alice" (["name"] ++ ["city"])).accepts field = true := by
  have haccepted : (compile "alice" ["name"]).isRejected = false := by decide +kernel
  obtain ⟨hextended, -, -, hboth⟩ :=
    narrows_and_widens haccepted "\u3000ab\u00a0" ["city"]
  refine ⟨haccepted, by decide +kernel, hextended, ?_⟩
  intro field h
  exact (hboth field).2 ((hboth field).1.1 h).1

end TextQuery

end StreamFusion
