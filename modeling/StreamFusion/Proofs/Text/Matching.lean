import Mathlib.Data.List.Infix
import Mathlib.Data.List.Sort
import StreamFusion.Proofs.Session.Names
import StreamFusion.Proofs.Text.Words
import StreamFusion.Script.Basic

/-!
# What a text query asks of an element

A query is compiled into tokens that are tried one after the other, longest first. What it asks can
be said without tokens and without an order (`TextQuery.Asks`): there are fields, one word of the
query is three characters long, and each word of the query is found in one of the fields. So only
the set of words and the set of fields count (`TextQuery.accepts_words`), and an object may keep its
texts alone.
-/

namespace StreamFusion

namespace Text

/-- The word is found in the text, letter case apart: a word of fewer than four characters at its
start, a longer one anywhere. -/
def Finds (word text : String) : Prop :=
  if word.length < 4 then (lowercase word).toList <+: (lowercase text).toList
  else (lowercase word).toList <:+: (lowercase text).toList

theorem occursIn_iff_infix {part text : List Char} :
    occursIn part text = true ↔ part <:+: text := by
  induction text with
  | nil => rw [occursIn, List.isEmpty_iff, List.infix_nil]
  | cons c rest ih => rw [occursIn, Bool.or_eq_true, List.isPrefixOf_iff_prefix, ih,
      List.infix_cons_iff]

/-- A token is found in a text in lower case if its word is found in the text. -/
theorem found_ofWord_iff {word text : String} :
    (TokenRule.ofWord word).found (lowercase text) = true ↔ Finds word text := by
  unfold TokenRule.found TokenRule.ofWord Finds
  by_cases hshort : word.length < 4
  · have hrule : word.length < TokenRule.containsLength := hshort
    rw [if_pos hshort]
    simp only [if_pos hrule]
    exact List.isPrefixOf_iff_prefix
  · have hrule : ¬ word.length < TokenRule.containsLength := hshort
    rw [if_neg hshort]
    simp only [if_neg hrule]
    exact occursIn_iff_infix

end Text

namespace TextQuery

open Text

/-- What a query asks of an element with these field texts. A missing text counts as an empty
one. -/
def Asks (query : String) (fields : List String) (field : String → Option String) : Prop :=
  fields ≠ [] ∧ (∃ word, IsWord word query ∧ 3 ≤ word.length) ∧
    ∀ word, IsWord word query → ∃ name ∈ fields, Finds word ((field name).getD "")

/-! ## Words in another order -/

/-- The words are sorted only, so they are the words of the query. -/
theorem mem_sortedWords_iff {word query : String} :
    word ∈ sortedWords query ↔ IsWord word query := by
  rw [sortedWords, (List.mergeSort_perm _ _).mem_iff, mem_words_iff]

theorem compile_rejected (query : String) (fields : List String) :
    (compile query fields).rejected = rejection? (sortedWords query) fields := rfl

/-- A query is rejected for its fields if it has none, and else for its words if none of them is
three characters long. -/
theorem rejection?_eq_none_iff {words fields : List String} :
    rejection? words fields = none ↔ fields ≠ [] ∧ ∃ word ∈ words, 3 ≤ word.length := by
  unfold rejection?
  cases fields with
  | nil => simp
  | cons name fields =>
    rw [if_neg (by simp)]
    constructor
    · intro h
      split at h
      · rename_i hany
        obtain ⟨word, hmem, hlength⟩ := List.any_eq_true.1 hany
        exact ⟨by simp, word, hmem, of_decide_eq_true hlength⟩
      · exact absurd h (by simp)
    · rintro ⟨-, word, hmem, hlength⟩
      exact if_pos (List.any_eq_true.2 ⟨word, hmem, decide_eq_true hlength⟩)

theorem isRejected_eq_false_iff {query : String} {fields : List String} :
    (compile query fields).isRejected = false ↔
      fields ≠ [] ∧ ∃ word, IsWord word query ∧ 3 ≤ word.length := by
  rw [isRejected, Option.isSome_eq_false_iff, Option.isNone_iff_eq_none, compile_rejected,
    rejection?_eq_none_iff]
  simp only [mem_sortedWords_iff]

theorem accepts_iff_asks {query : String} {fields : List String}
    {field : String → Option String} :
    (compile query fields).accepts field = true ↔ Asks query fields field := by
  unfold accepts Asks
  cases hrejected : (compile query fields).isRejected with
  | true =>
    -- a rejected query accepts nothing, and asks for a field or a word that is not there
    have hnot : ¬(fields ≠ [] ∧ ∃ word, IsWord word query ∧ 3 ≤ word.length) := fun h => by
      rw [isRejected_eq_false_iff.2 h] at hrejected
      exact absurd hrejected (by simp)
    exact ⟨fun h => absurd h (by simp), fun h => absurd ⟨h.1, h.2.1⟩ hnot⟩
  | false =>
    obtain ⟨hfields, hlong⟩ := isRejected_eq_false_iff.1 hrejected
    have htokens : (compile query fields).tokens = (sortedWords query).map TokenRule.ofWord := rfl
    rw [if_neg (by simp), htokens, List.all_map, List.all_eq_true]
    simp only [Function.comp_apply, List.any_eq_true, List.mem_map, exists_exists_and_eq_and,
      found_ofWord_iff, mem_sortedWords_iff]
    exact ⟨fun h => ⟨hfields, hlong, h⟩, fun h => h.2.2⟩

section SameWords

variable {query query' : String} {fields fields' : List String}
  (hwords : ∀ word, IsWord word query ↔ IsWord word query')
  (hfields : ∀ name, name ∈ fields ↔ name ∈ fields')
include hwords hfields

/-- Queries with the same words and the same fields are rejected alike. -/
theorem rejected_congr : (compile query fields).rejected = (compile query' fields').rejected := by
  have hempty : fields.isEmpty = fields'.isEmpty := by
    rw [Bool.eq_iff_iff, List.isEmpty_iff, List.isEmpty_iff, List.eq_nil_iff_forall_not_mem,
      List.eq_nil_iff_forall_not_mem]
    simp only [hfields]
  have hany : (sortedWords query).any (fun word => specificLength ≤ word.length) =
      (sortedWords query').any (fun word => specificLength ≤ word.length) := by
    rw [Bool.eq_iff_iff, List.any_eq_true, List.any_eq_true]
    simp only [mem_sortedWords_iff, hwords]
  rw [compile_rejected, compile_rejected, rejection?, rejection?, hempty, hany]

theorem asks_congr (field : String → Option String) :
    Asks query fields field ↔ Asks query' fields' field := by
  have hnil : fields = [] ↔ fields' = [] := by
    rw [List.eq_nil_iff_forall_not_mem, List.eq_nil_iff_forall_not_mem]
    simp only [hfields]
  unfold Asks
  simp only [hwords, hfields, ne_eq, hnil]

end SameWords

end TextQuery

/-! ## Elements that keep their texts alone -/

section Texts

variable {members : Dictionary Value} {name s : String} (h : members.Sorted)
include h

/-- The text at a name is the text of the member of that name. -/
theorem Value.textField_eq_some_iff :
    (Value.object members).textField name = some s ↔ (name, Value.text s) ∈ members := by
  unfold Value.textField Value.member?
  constructor
  · intro hfield
    cases hfind : Dictionary.find? name members with
    | none => simp [hfind] at hfield
    | some v =>
      have hmem : (name, v) ∈ members := (h.perm_of_find? hfind).mem_iff.2 List.mem_cons_self
      cases v <;> simp_all
  · intro hmem
    simp only [h.find?_of_mem hmem]

/-- An object that keeps its texts alone has the same texts. -/
theorem Shape.textField_texts :
    (Shape.texts.read (.object members)).textField name =
      (Value.object members).textField name := by
  have hsorted : Dictionary.Sorted (Shape.textMembers members) := List.Pairwise.filter _ h
  ext s
  change (Value.object (Shape.textMembers members)).textField name = some s ↔ _
  rw [Value.textField_eq_some_iff hsorted, Value.textField_eq_some_iff h, Shape.textMembers,
    List.mem_filter]
  exact and_iff_left rfl

end Texts

/-- A value that keeps its texts alone has the same texts: there are none in a value that is no
object. -/
theorem Script.textAt_texts {v : Value}
    (h : ∀ members, v = .object members → Dictionary.Sorted members) :
    Script.textAt (Shape.texts.read v) = Script.textAt v := by
  funext name
  cases v with
  | object members => exact Shape.textField_texts (h members rfl)
  | null => rfl
  | bool b => rfl
  | int n => rfl
  | text s => rfl
  | list items => rfl

/-! ## The meaning of a query -/

/-- A query accepts the elements that have what it asks for, whether they keep all of their members
or their texts alone. It means the same as any other query with the same words for the same
fields, in whatever order and however often these are named. -/
theorem TextQuery.accepts_words (query : String) (fields : List String) :
    (∀ field, (compile query fields).accepts field = true ↔ Asks query fields field) ∧
    (∀ v : Value, (∀ members, v = .object members → Dictionary.Sorted members) →
      ((compile query fields).accepts (Script.textAt (Shape.texts.read v)) = true ↔
        Asks query fields (Script.textAt v))) ∧
    ∀ query' fields', (∀ word, Text.IsWord word query ↔ Text.IsWord word query') →
      (∀ name, name ∈ fields ↔ name ∈ fields') →
      (compile query fields).rejected = (compile query' fields').rejected ∧
      ∀ field, (compile query fields).accepts field = (compile query' fields').accepts field := by
  refine ⟨fun _ => accepts_iff_asks, fun v hsorted => ?_, fun query' fields' hwords hfields => ?_⟩
  · rw [Script.textAt_texts hsorted]
    exact accepts_iff_asks
  · refine ⟨rejected_congr hwords hfields, fun field => ?_⟩
    rw [Bool.eq_iff_iff, accepts_iff_asks, accepts_iff_asks]
    exact asks_congr hwords hfields field

/-- The words "ab" and "alice" in two orders, and what an object of a number and two texts has of
them: one at the start of the second text, the other inside the first. -/
theorem TextQuery.accepts_words_malice :
    (compile "  ab  alice" ["name", "city"]).accepts (Script.textAt (Shape.texts.read
      (.object [("age", .int 7), ("city", .text "Abingdon"), ("name", .text "MALICE")]))) = true ∧
    ∀ field, (compile "  ab  alice" ["name", "city"]).accepts field =
      (compile "alice ab\tab" ["city", "name", "city"]).accepts field := by
  obtain ⟨-, htexts, hsame⟩ := TextQuery.accepts_words "  ab  alice" ["name", "city"]
  have hwords : Text.words "  ab  alice" = ["ab", "alice"] := by decide
  constructor
  · refine (htexts (.object [("age", .int 7), ("city", .text "Abingdon"), ("name", .text "MALICE")])
      fun members hmembers => ?_).2 ⟨by simp, ⟨"alice", ?_, by decide⟩, fun word hword => ?_⟩
    · obtain rfl := Value.object.inj hmembers
      unfold Dictionary.Sorted
      decide
    · rw [← Text.mem_words_iff, hwords]
      simp
    · rw [← Text.mem_words_iff, hwords] at hword
      obtain rfl | rfl : word = "ab" ∨ word = "alice" := by simpa using hword
      · exact ⟨"city", by simp, (if_pos (by decide)).mpr (by decide)⟩
      · exact ⟨"name", by simp, (if_neg (by decide)).mpr (by decide)⟩
  · refine (hsame "alice ab\tab" ["city", "name", "city"] (fun word => ?_) fun name => ?_).2
    · rw [← Text.mem_words_iff, ← Text.mem_words_iff, hwords,
        show Text.words "alice ab\tab" = ["alice", "ab", "ab"] by decide]
      simp [or_comm]
    · simp [or_comm]

end StreamFusion
