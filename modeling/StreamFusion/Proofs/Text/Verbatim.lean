import Mathlib.Data.List.TakeWhile
import StreamFusion.Proofs.Text.Lowercase
import StreamFusion.Proofs.Text.Matching

/-!
# Words that stand in a text as they are

A word that stands in a text exactly as it is written need not be found there. The small sigma for a
capital one is chosen by the characters around it, and the lower case of a word is made without those
that stand around it in the text. A word is found wherever it stands exactly if none of its capital
sigmas looks beyond its ends (`TextQuery.verbatim_iff`).
-/

namespace StreamFusion

namespace Text

/-! ## Parts of a text -/

/-- The lower case of a part of a text that stands between `before`, read backwards, and `after`. -/
def lowerWithin (after : List Char) : List Char → List Char → List Char
  | _, [] => []
  | before, c :: rest => lowerAt before c (rest ++ after) ++ lowerWithin after (c :: before) rest

theorem lowerFrom_eq_within (before text : List Char) :
    lowerFrom before text = lowerWithin [] before text := by
  induction text generalizing before with
  | nil => rfl
  | cons c rest ih => rw [lowerFrom_cons, lowerWithin, List.append_nil, ih]

theorem lowerWithin_append (after before first second : List Char) :
    lowerWithin after before (first ++ second) =
      lowerWithin (second ++ after) before first
        ++ lowerWithin after (first.reverse ++ before) second := by
  induction first generalizing before with
  | nil => rfl
  | cons c first ih =>
    rw [List.cons_append, lowerWithin, lowerWithin, ih, List.reverse_cons, List.append_assoc,
      List.append_assoc, List.append_assoc]
    rfl

/-- Where the capital sigmas of a part become the same, its lower case is the same. -/
theorem lowerWithin_congr {before before' after after' part : List Char}
    (h : ∀ first rest, part = first ++ 'Σ' :: rest →
      smallSigma (first.reverse ++ before) (rest ++ after) =
        smallSigma (first.reverse ++ before') (rest ++ after')) :
    lowerWithin after before part = lowerWithin after' before' part := by
  induction part generalizing before before' with
  | nil => rfl
  | cons c rest ih =>
    have hat : lowerAt before c (rest ++ after) = lowerAt before' c (rest ++ after') := by
      unfold lowerAt
      split
      · rename_i hsigma
        have hsame : smallSigma before (rest ++ after) = smallSigma before' (rest ++ after') :=
          h [] rest (by rw [hsigma, List.nil_append])
        rw [hsame]
      · rfl
    rw [lowerWithin, lowerWithin, hat, ih]
    intro first later hrest
    have hsplit := h (c :: first) later (by rw [hrest, List.cons_append])
    rwa [List.reverse_cons, List.append_assoc, List.append_assoc] at hsplit

/-- A part without capital sigmas has one lower case. -/
theorem lowerWithin_of_not_mem {part : List Char} (h : 'Σ' ∉ part)
    (before before' after after' : List Char) :
    lowerWithin after before part = lowerWithin after' before' part := by
  apply lowerWithin_congr
  intro first rest hpart
  rw [hpart] at h
  exact absurd (List.mem_append_right first List.mem_cons_self) h

/-! ## How far the word-final rule looks -/

/-- The word-final rule looks past all of these characters. -/
def LookedPast (cs : List Char) : Prop := ∀ c ∈ cs, isCaseIgnorable c = true

instance (cs : List Char) : Decidable (LookedPast cs) :=
  decidable_of_iff (cs.all isCaseIgnorable = true) List.all_eq_true

section LookedPast

variable {cs : List Char}

theorem LookedPast.meetsCased_append (h : LookedPast cs) (more : List Char) :
    meetsCased (cs ++ more) = meetsCased more := by
  rw [meetsCased, meetsCased, List.dropWhile_append_of_pos h]

theorem LookedPast.meetsCased_eq (h : LookedPast cs) : meetsCased cs = false := by
  have hcs := h.meetsCased_append []
  rw [List.append_nil] at hcs
  rw [hcs]
  rfl

/-- The rule does not come to what stands behind a character that it does not look past. -/
theorem meetsCased_append_of_not (h : ¬ LookedPast cs) (more : List Char) :
    meetsCased (cs ++ more) = meetsCased cs := by
  unfold meetsCased
  rw [List.dropWhile_append]
  cases hdrop : cs.dropWhile isCaseIgnorable with
  | nil => exact absurd (List.dropWhile_eq_nil_iff.1 hdrop) h
  | cons d ds => rfl

end LookedPast

theorem sigma_not_ignorable : isCaseIgnorable 'Σ' = false := by
  decide +kernel

theorem LookedPast.not_mem {cs : List Char} (h : LookedPast cs) : 'Σ' ∉ cs := by
  intro hmem
  have hsigma := h 'Σ' hmem
  rw [sigma_not_ignorable] at hsigma
  exact absurd hsigma (by simp)

/-- The rule looks past no capital sigma. -/
theorem meetsCased_sigma (cs more : List Char) :
    meetsCased (cs ++ 'Σ' :: more) = meetsCased (cs ++ ['Σ']) := by
  have hstops : ¬ LookedPast (cs ++ ['Σ']) := by
    intro hpast
    exact hpast.not_mem (List.mem_append_right cs List.mem_cons_self)
  rw [← meetsCased_append_of_not hstops more, List.append_assoc]
  rfl

/-- Between these characters of a word, those before it read backwards, a capital sigma becomes what
stands behind the word makes of it. -/
def HangsBehind (before after : List Char) : Prop := meetsCased before = true ∧ LookedPast after

/-- Between these characters of a word, those before it read backwards, a capital sigma becomes what
stands before the word makes of it. -/
def HangsBefore (before after : List Char) : Prop := LookedPast before ∧ meetsCased after = false

instance (before after : List Char) : Decidable (HangsBehind before after) :=
  inferInstanceAs (Decidable (_ ∧ _))

instance (before after : List Char) : Decidable (HangsBefore before after) :=
  inferInstanceAs (Decidable (_ ∧ _))

/-- A capital sigma that hangs neither behind its word nor before it becomes the same in every text.
At the start of a text nothing stands before the word. -/
theorem smallSigma_within {before after outer : List Char} (hbehind : ¬ HangsBehind before after)
    (hbefore : outer = [] ∨ ¬ HangsBefore before after) (beyond : List Char) :
    smallSigma (before ++ outer) (after ++ beyond) = smallSigma before after := by
  have houter : outer = [] ∨ meetsCased after = true ∨
      meetsCased (before ++ outer) = meetsCased before := by
    rcases hbefore with hnone | hnot
    · exact .inl hnone
    · by_cases hpast : LookedPast before
      · cases hmeets : meetsCased after with
        | true => exact .inr (.inl rfl)
        | false => exact absurd ⟨hpast, hmeets⟩ hnot
      · exact .inr (.inr (meetsCased_append_of_not hpast outer))
  unfold smallSigma
  by_cases hpast : LookedPast after
  · -- nothing cased stands before the sigma, whatever stands behind it
    have hnone : meetsCased before = false := by
      rw [Bool.eq_false_iff]
      intro hmeets
      exact hbehind ⟨hmeets, hpast⟩
    have hleft : meetsCased (before ++ outer) = false := by
      rcases houter with rfl | hmeets | hsame
      · rw [List.append_nil, hnone]
      · rw [hpast.meetsCased_eq] at hmeets
        exact absurd hmeets (by simp)
      · rw [hsame, hnone]
    rw [hleft, hnone]
    rfl
  · rw [meetsCased_append_of_not hpast beyond]
    rcases houter with rfl | hmeets | hsame
    · rw [List.append_nil]
    · rw [hmeets, Bool.not_true, Bool.and_false, Bool.and_false]
    · rw [hsame]

/-! ## Steady words -/

/-- No capital sigma of the word hangs behind it, nor before it if the word may stand anywhere. -/
def Steady (word : String) : Prop :=
  ∀ before after, word.toList = before ++ 'Σ' :: after →
    ¬ HangsBehind before.reverse after ∧ (4 ≤ word.length → ¬ HangsBefore before.reverse after)

instance (word : String) : Decidable (Steady word) :=
  decidable_of_iff
    (∀ place < word.toList.length, word.toList[place]? = some 'Σ' →
      ¬ HangsBehind (word.toList.take place).reverse (word.toList.drop (place + 1)) ∧
        (4 ≤ word.length →
          ¬ HangsBefore (word.toList.take place).reverse (word.toList.drop (place + 1)))) <| by
    constructor
    · intro h before after hword
      have hplace := h before.length
      rw [hword] at hplace
      simpa using hplace
    · intro h place hlt hsigma
      refine h _ _ ?_
      rw [List.getElem?_eq_getElem hlt, Option.some.injEq] at hsigma
      rw [← hsigma, ← List.drop_eq_getElem_cons hlt, List.take_append_drop]

theorem steady_of_not_mem {word : String} (h : 'Σ' ∉ word.toList) : Steady word := by
  intro before after hword
  rw [hword] at h
  exact absurd (List.mem_append_right before List.mem_cons_self) h

/-- The word stands in the text as it is: at its start, if it is a word of fewer than four
characters. -/
def Verbatim (word text : String) : Prop :=
  if word.length < 4 then word.toList <+: text.toList else word.toList <:+: text.toList

theorem Steady.lowerWithin_eq {word : String} (h : Steady word) {outer : List Char}
    (houter : outer = [] ∨ 4 ≤ word.length) (beyond : List Char) :
    lowerWithin beyond outer word.toList = (lowercase word).toList := by
  rw [toList_lowercase, lowerFrom_eq_within]
  apply lowerWithin_congr
  intro first rest hword
  obtain ⟨hbehind, hbefore⟩ := h first rest hword
  rw [List.append_nil, List.append_nil]
  exact smallSigma_within hbehind (houter.imp_right hbefore) beyond

/-- A steady word is found wherever it stands. -/
theorem Steady.finds {word text : String} (h : Steady word) (hstands : Verbatim word text) :
    Finds word text := by
  unfold Verbatim at hstands
  unfold Finds
  rw [toList_lowercase text, lowerFrom_eq_within]
  split
  · rename_i hshort
    rw [if_pos hshort] at hstands
    obtain ⟨rest, htext⟩ := hstands
    rw [← htext, lowerWithin_append, List.append_nil, h.lowerWithin_eq (.inl rfl)]
    exact List.prefix_append _ _
  · rename_i hlong
    rw [if_neg hlong] at hstands
    obtain ⟨outer, beyond, htext⟩ := hstands
    rw [← htext, List.append_assoc, lowerWithin_append, lowerWithin_append,
      h.lowerWithin_eq (.inr (Nat.not_lt.1 hlong)), ← List.append_assoc]
    exact List.infix_append _ _ _

/-! ## Words that hang -/

/-- A list in which one element was replaced by another, with nothing around it that is like the
element, does not contain the list. -/
theorem not_infix_of_replaced {l r p q : List Char} {s t : Char} (hne : t ≠ s) (hp : s ∉ p)
    (hq : s ∉ q) : ¬ (l ++ s :: r) <:+: (p ++ (l ++ t :: r) ++ q) := by
  intro h
  have hcount : (l ++ s :: r).count s ≤ (p ++ (l ++ t :: r) ++ q).count s := h.sublist.count_le s
  rw [List.count_append, List.count_append, List.count_append, List.count_append,
    List.count_cons_self, List.count_cons_of_ne hne, List.count_eq_zero_of_not_mem hp,
    List.count_eq_zero_of_not_mem hq] at hcount
  omega

theorem lowerWithin_letter (after before : List Char) : lowerWithin after before ['a'] = ['a'] := by
  have hletter : lowerChar 'a' = ['a'] := by decide +kernel
  rw [lowerWithin, lowerAt, if_neg (by decide), hletter]
  rfl

theorem meetsCased_letter (cs : List Char) (h : LookedPast cs) : meetsCased (cs ++ ['a']) = true := by
  have hletter : meetsCased ['a'] = true := by decide +kernel
  rw [h.meetsCased_append, hletter]

section Hanging

variable {before after : List Char}

theorem lowerWithin_cons_sigma (after before rest : List Char) :
    lowerWithin after before ('Σ' :: rest) =
      smallSigma before (rest ++ after) :: lowerWithin after ('Σ' :: before) rest := by
  rw [lowerWithin, lowerAt, if_pos rfl]
  rfl

/-- Behind a word whose sigma hangs there, a letter takes away a final sigma. -/
theorem not_infix_behind (h : HangsBehind before.reverse after) :
    ¬ lowerFrom [] (before ++ 'Σ' :: after) <:+: lowerFrom [] (before ++ 'Σ' :: after ++ ['a']) := by
  obtain ⟨hcased, hpast⟩ := h
  have hfinal : smallSigma before.reverse after = 'ς' := by
    rw [smallSigma, hcased, hpast.meetsCased_eq]
    rfl
  have hinner : smallSigma before.reverse (after ++ ['a']) = 'σ' := by
    rw [smallSigma, meetsCased_letter after hpast, Bool.not_true, Bool.and_false]
    rfl
  have hleft : lowerWithin ('Σ' :: after ++ ['a']) [] before = lowerWithin ('Σ' :: after) [] before := by
    apply lowerWithin_congr
    intro first rest _
    rw [smallSigma, smallSigma, List.cons_append, meetsCased_sigma rest (after ++ ['a']),
      meetsCased_sigma rest after]
  have hright : lowerWithin ['a'] ('Σ' :: before.reverse) after =
      lowerWithin [] ('Σ' :: before.reverse) after :=
    lowerWithin_of_not_mem hpast.not_mem ..
  rw [lowerFrom_eq_within, lowerFrom_eq_within, lowerWithin_append, lowerWithin_append,
    lowerWithin_append, lowerWithin_cons_sigma, lowerWithin_cons_sigma, List.append_nil,
    List.append_nil, List.append_nil, List.append_nil, hfinal, hinner, hleft, hright,
    lowerWithin_letter]
  exact not_infix_of_replaced (p := []) (by decide) (by simp) (by decide)

/-- In front of a word whose sigma hangs there, a letter makes it final. -/
theorem not_infix_before (h : HangsBefore before.reverse after) :
    ¬ lowerFrom [] (before ++ 'Σ' :: after) <:+: lowerFrom [] ('a' :: (before ++ 'Σ' :: after)) := by
  obtain ⟨hpast, hnot⟩ := h
  have hfinal : smallSigma (before.reverse ++ ['a']) after = 'ς' := by
    rw [smallSigma, meetsCased_letter _ hpast, hnot]
    rfl
  have hinner : smallSigma before.reverse after = 'σ' := by
    rw [smallSigma, hpast.meetsCased_eq, Bool.false_and]
    rfl
  have hleft : lowerWithin ('Σ' :: after) ['a'] before = lowerWithin ('Σ' :: after) [] before := by
    refine lowerWithin_of_not_mem ?_ ..
    intro hmem
    exact hpast.not_mem (List.mem_reverse.2 hmem)
  have hright : lowerWithin [] ('Σ' :: (before.reverse ++ ['a'])) after =
      lowerWithin [] ('Σ' :: before.reverse) after := by
    apply lowerWithin_congr
    intro first rest _
    rw [smallSigma, smallSigma, meetsCased_sigma first.reverse (before.reverse ++ ['a']),
      meetsCased_sigma first.reverse before.reverse]
  have hword : 'a' :: (before ++ 'Σ' :: after) = ['a'] ++ (before ++ 'Σ' :: after) := rfl
  rw [hword, lowerFrom_eq_within, lowerFrom_eq_within, lowerWithin_append, lowerWithin_append,
    lowerWithin_append, lowerWithin_cons_sigma, lowerWithin_cons_sigma, List.append_nil,
    List.append_nil, List.append_nil, List.reverse_singleton, List.append_nil ['a'], hfinal, hinner,
    hleft, hright, lowerWithin_letter, ← List.append_nil (['a'] ++ _)]
  exact not_infix_of_replaced (by decide) (by decide) (by simp)

end Hanging

/-- A word that is not steady stands in a text in which it is not found. -/
theorem exists_lost {word : String} (h : ¬ Steady word) :
    ∃ text, Verbatim word text ∧ ¬ Finds word text := by
  simp only [Steady, not_forall] at h
  obtain ⟨before, after, hword, hhangs⟩ := h
  by_cases hbehind : HangsBehind before.reverse after
  · refine ⟨String.ofList (word.toList ++ ['a']), ?_, ?_⟩
    · unfold Verbatim
      rw [String.toList_ofList]
      split
      · exact List.prefix_append _ _
      · exact (List.prefix_append _ _).isInfix
    · have hnot := not_infix_behind hbehind
      rw [← hword] at hnot
      unfold Finds
      rw [toList_lowercase, toList_lowercase, String.toList_ofList]
      split
      · exact fun hfound => hnot hfound.isInfix
      · exact hnot
  · have hbefore : 4 ≤ word.length ∧ HangsBefore before.reverse after := by
      by_contra hnone
      exact hhangs ⟨hbehind, fun hlong hhang => hnone ⟨hlong, hhang⟩⟩
    have hlong : ¬ word.length < 4 := Nat.not_lt.2 hbefore.1
    refine ⟨String.ofList ('a' :: word.toList), ?_, ?_⟩
    · rw [Verbatim, if_neg hlong, String.toList_ofList]
      exact (List.suffix_cons 'a' _).isInfix
    · rw [Finds, if_neg hlong, toList_lowercase, toList_lowercase, String.toList_ofList, hword]
      exact not_infix_before hbefore.2

end Text

namespace TextQuery

open Text

/-- A query of one word finds this word in every element in which it stands exactly if the word is
steady. So it does if the word has no capital sigma. -/
theorem verbatim_iff {query word : String} {fields : List String} (hquery : words query = [word])
    (haccepted : (compile query fields).isRejected = false) :
    ((∀ field : String → Option String,
        (∃ name ∈ fields, ∃ text, field name = some text ∧ Verbatim word text) →
          (compile query fields).accepts field = true) ↔ Steady word) ∧
      ('Σ' ∉ word.toList → Steady word) := by
  have hword : ∀ other, IsWord other query ↔ other = word := by
    intro other
    rw [← mem_words_iff, hquery, List.mem_singleton]
  obtain ⟨hfields, hlong⟩ := isRejected_eq_false_iff.1 haccepted
  refine ⟨⟨?_, ?_⟩, steady_of_not_mem⟩
  · intro hall
    by_contra hnot
    obtain ⟨text, hstands, hlost⟩ := exists_lost hnot
    obtain ⟨first, hfirst⟩ := List.exists_mem_of_ne_nil fields hfields
    have haccepts := hall (fun _ => some text) ⟨first, hfirst, text, rfl, hstands⟩
    obtain ⟨name, -, hfound⟩ := (accepts_iff_asks.1 haccepts).2.2 word ((hword word).2 rfl)
    exact hlost hfound
  · intro hsteady field hhit
    obtain ⟨name, hname, text, hfield, hstands⟩ := hhit
    refine accepts_iff_asks.2 ⟨hfields, hlong, ?_⟩
    intro other hother
    refine ⟨name, hname, ?_⟩
    rw [(hword other).1 hother, hfield]
    exact hsteady.finds hstands

/-- The sigmas of this word are held by the letters around them, and by the digit at its end. -/
theorem verbatim_iff_held :
    words " ΣΟΦΟΣ1 " = ["ΣΟΦΟΣ1"] ∧ (compile " ΣΟΦΟΣ1 " ["name"]).isRejected = false ∧
    ∀ field : String → Option String,
      (∃ name ∈ ["name"], ∃ text, field name = some text ∧ Verbatim "ΣΟΦΟΣ1" text) →
        (compile " ΣΟΦΟΣ1 " ["name"]).accepts field = true := by
  have hquery : words " ΣΟΦΟΣ1 " = ["ΣΟΦΟΣ1"] := by decide +kernel
  have haccepted : (compile " ΣΟΦΟΣ1 " ["name"]).isRejected = false := by decide +kernel
  exact ⟨hquery, haccepted, (verbatim_iff hquery haccepted).1.2 (by decide +kernel)⟩

/-- The last sigma of the word is final, and that of the same letters in a longer text is not. -/
theorem verbatim_lost :
    words "ΟΔΟΣ" = ["ΟΔΟΣ"] ∧ (compile "ΟΔΟΣ" ["name"]).isRejected = false ∧
    Verbatim "ΟΔΟΣ" "ΟΔΟΣΑ" ∧
    (compile "ΟΔΟΣ" ["name"]).accepts (fun _ => some "ΟΔΟΣΑ") = false := by
  refine ⟨by decide +kernel, by decide +kernel, ?_, by decide +kernel⟩
  rw [Verbatim, if_neg (by decide)]
  decide

end TextQuery

end StreamFusion
