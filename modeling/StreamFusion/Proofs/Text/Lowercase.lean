import StreamFusion.Proofs.Text.Words
import StreamFusion.Text.Lowercase

/-!
# Words in lower case

A blank has no case, and no other character has a blank in its lower case. A capital sigma does not
look past a blank either, so the lower case of a text is made part by part (`Text.lowerFrom_cut`), and
its words are the words of the text in lower case (`Text.isWord_lowercase_iff`). Only U+0130 becomes
more than one character.
-/

namespace StreamFusion

namespace Text

/-! ## The tables -/

/-- The code points of the ranges, one by one. -/
def CodeRanges.codes (ranges : CodeRanges) : List Nat :=
  ranges.flatMap fun range => List.range' range.1 (range.2 + 1 - range.1)

theorem CodeRanges.mem_codes_iff {ranges : CodeRanges} {code : Nat} :
    code ∈ ranges.codes ↔ ranges.holds code = true := by
  simp only [codes, holds, List.mem_flatMap, List.any_eq_true, Bool.and_eq_true, decide_eq_true_eq,
    List.mem_range'_1]
  refine exists_congr fun range => and_congr_right fun _ => ?_
  omega

/-- Blanks are in none of the tables. -/
theorem blank_codes_plain : ∀ code ∈ blankRanges.codes,
    lowerRuns.findSome? (fun run => run.lower? code) = none ∧ casedRanges.holds code = false
      ∧ caseIgnorableRanges.holds code = false ∧ code ≠ 'Σ'.toNat ∧ code ≠ '\u0130'.toNat := by
  decide +kernel

/-- The lower cases of a run lie beside the blanks. -/
theorem lowerRuns_beside_blanks : ∀ run ∈ lowerRuns, ∀ range ∈ blankRanges,
    range.2 < run.lower ∨ run.lower + (run.last - run.first) < range.1 := by
  decide +kernel

section Blank

variable {c : Char} (hblank : isBlank c = true)
include hblank

theorem blank_plain :
    lowerRuns.findSome? (fun run => run.lower? c.toNat) = none ∧ isCased c = false
      ∧ isCaseIgnorable c = false ∧ c ≠ 'Σ' ∧ c ≠ '\u0130' := by
  obtain ⟨hlower, hcased, hignorable, hsigma, hdotted⟩ :=
    blank_codes_plain c.toNat (CodeRanges.mem_codes_iff.2 hblank)
  exact ⟨hlower, hcased, hignorable, fun h => hsigma (congrArg Char.toNat h),
    fun h => hdotted (congrArg Char.toNat h)⟩

theorem lowerChar_blank : lowerChar c = [c] := by
  obtain ⟨hlower, -, -, -, hdotted⟩ := blank_plain hblank
  rw [lowerChar, if_neg hdotted, hlower]

/-- The word-final rule does not look past a blank. -/
theorem meetsCased_blank (cs rest : List Char) : meetsCased (cs ++ c :: rest) = meetsCased cs := by
  obtain ⟨-, hcased, hignorable, -, -⟩ := blank_plain hblank
  unfold meetsCased
  rw [List.dropWhile_append]
  cases hdrop : cs.dropWhile isCaseIgnorable with
  | nil => simp [hignorable, hcased]
  | cons d ds => simp

theorem smallSigma_blank (before after rest rest' : List Char) :
    smallSigma (before ++ c :: rest) after = smallSigma before after
      ∧ smallSigma before (after ++ c :: rest') = smallSigma before after := by
  unfold smallSigma
  rw [meetsCased_blank hblank, meetsCased_blank hblank]
  exact ⟨rfl, rfl⟩

end Blank

/-- A code point that is no character counts as zero. -/
theorem toNat_ofNat (code : Nat) :
    (Char.ofNat code).toNat = code ∨ (Char.ofNat code).toNat = 0 := by
  by_cases hvalid : code.isValidChar
  · rw [Char.ofNat, dif_pos hvalid]
    exact .inl rfl
  · rw [Char.ofNat, dif_neg hvalid]
    exact .inr rfl

theorem lower?_solid {run : LowerRun} (hrun : run ∈ lowerRuns) {code lower : Nat}
    (h : run.lower? code = some lower) : isBlank (Char.ofNat lower) = false := by
  unfold LowerRun.lower? at h
  split at h
  · rename_i hwithin
    have hlower : run.lower + (code - run.first) = lower := Option.some.inj h
    rw [isBlank, Bool.eq_false_iff]
    intro hblank
    obtain htoNat | htoNat := toNat_ofNat lower
    · rw [htoNat, CodeRanges.holds, List.any_eq_true] at hblank
      obtain ⟨range, hrange, hholds⟩ := hblank
      rw [Bool.and_eq_true, decide_eq_true_eq, decide_eq_true_eq] at hholds
      have hbeside := lowerRuns_beside_blanks run hrun range hrange
      omega
    · rw [htoNat] at hblank
      exact absurd hblank (by decide)
  · exact absurd h (by simp)

/-- No blank comes out of a character that is none. -/
theorem lowerChar_solid {c d : Char} (h : isBlank c = false) (hd : d ∈ lowerChar c) :
    isBlank d = false := by
  unfold lowerChar at hd
  split at hd
  · have hletter : isBlank 'i' = false := by decide
    have hdot : isBlank '\u0307' = false := by decide
    rcases List.mem_cons.1 hd with rfl | hd
    · exact hletter
    · rw [List.mem_singleton.1 hd]
      exact hdot
  · split at hd
    · rename_i code hcode
      obtain ⟨run, hrun, hlower⟩ := List.exists_of_findSome?_eq_some hcode
      rw [List.mem_singleton.1 hd]
      exact lower?_solid hrun hlower
    · rw [List.mem_singleton.1 hd]
      exact h

theorem length_lowerChar {c : Char} (h : c ≠ '\u0130') : (lowerChar c).length = 1 := by
  rw [lowerChar, if_neg h]
  split <;> rfl

theorem lowerChar_ne_nil (c : Char) : lowerChar c ≠ [] := by
  intro hnil
  by_cases h : c = '\u0130'
  · rw [lowerChar, if_pos h] at hnil
    exact absurd hnil (by simp)
  · have hlength := length_lowerChar h
    rw [hnil] at hlength
    exact absurd hlength (by simp)

/-! ## Texts -/

/-- What one character of a text becomes. -/
def lowerAt (before : List Char) (c : Char) (rest : List Char) : List Char :=
  if c = 'Σ' then [smallSigma before rest] else lowerChar c

theorem lowerFrom_cons (before : List Char) (c : Char) (rest : List Char) :
    lowerFrom before (c :: rest) = lowerAt before c rest ++ lowerFrom (c :: before) rest := rfl

theorem lowerAt_ne_nil (before : List Char) (c : Char) (rest : List Char) :
    lowerAt before c rest ≠ [] := by
  unfold lowerAt
  split
  · simp
  · exact lowerChar_ne_nil c

theorem length_lowerAt {c : Char} (h : c ≠ '\u0130') (before rest : List Char) :
    (lowerAt before c rest).length = 1 := by
  unfold lowerAt
  split
  · rfl
  · exact length_lowerChar h

theorem lowerAt_solid {c d : Char} (h : isBlank c = false) {before rest : List Char}
    (hd : d ∈ lowerAt before c rest) : isBlank d = false := by
  unfold lowerAt at hd
  split at hd
  · rw [List.mem_singleton.1 hd, smallSigma]
    split <;> decide
  · exact lowerChar_solid h hd

theorem lowerFrom_eq_nil_iff {before text : List Char} :
    lowerFrom before text = [] ↔ text = [] := by
  cases text with
  | nil => exact iff_of_true rfl rfl
  | cons c rest =>
    refine iff_of_false (fun h => ?_) (by simp)
    rw [lowerFrom_cons, List.append_eq_nil_iff] at h
    exact lowerAt_ne_nil before c rest h.1

theorem lowerFrom_solid {text : List Char} (h : ∀ c ∈ text, isBlank c = false)
    (before : List Char) : ∀ d ∈ lowerFrom before text, isBlank d = false := by
  induction text generalizing before with
  | nil => exact nofun
  | cons c rest ih =>
    intro d hd
    rw [lowerFrom_cons, List.mem_append] at hd
    rcases hd with hd | hd
    · exact lowerAt_solid (h c List.mem_cons_self) hd
    · exact ih (fun e he => h e (List.mem_cons_of_mem c he)) _ d hd

/-- Without U+0130 the lower case has as many characters. -/
theorem length_lowerFrom {text : List Char} (h : '\u0130' ∉ text) (before : List Char) :
    (lowerFrom before text).length = text.length := by
  induction text generalizing before with
  | nil => rfl
  | cons c rest ih =>
    obtain ⟨hc, hrest⟩ := not_or.1 (mt List.mem_cons.2 h)
    rw [lowerFrom_cons, List.length_append, length_lowerAt (Ne.symm hc), ih hrest,
      List.length_cons, Nat.add_comm]

section Cut

variable {c : Char} (hblank : isBlank c = true)
include hblank

/-- What stands before a blank does not matter behind it. -/
theorem lowerFrom_behind (before rest text : List Char) :
    lowerFrom (before ++ c :: rest) text = lowerFrom before text := by
  induction text generalizing before with
  | nil => rfl
  | cons d text ih =>
    have hat : lowerAt (before ++ c :: rest) d text = lowerAt before d text := by
      rw [lowerAt, lowerAt, (smallSigma_blank hblank before text rest []).1]
    rw [lowerFrom_cons, lowerFrom_cons, hat]
    exact congrArg _ (ih (d :: before))

/-- A blank cuts the lower case of a text as it cuts the text. -/
theorem lowerFrom_cut (before first second : List Char) :
    lowerFrom before (first ++ c :: second) =
      lowerFrom before first ++ c :: lowerFrom [] second := by
  induction first generalizing before with
  | nil =>
    have hat : lowerAt before c second = [c] := by
      rw [lowerAt, if_neg (blank_plain hblank).2.2.2.1, lowerChar_blank hblank]
    rw [List.nil_append, lowerFrom_cons, hat]
    exact congrArg (c :: ·) (lowerFrom_behind hblank [] before second)
  | cons d first ih =>
    have hat : lowerAt before d (first ++ c :: second) = lowerAt before d first := by
      rw [lowerAt, lowerAt, (smallSigma_blank hblank before first [] second).2]
    rw [List.cons_append, lowerFrom_cons, hat, ih, lowerFrom_cons, List.append_assoc]

end Cut

/-! ## Words -/

theorem standsIn_lower_iff {word text : List Char} :
    StandsIn word (lowerFrom [] text) ↔ ∃ v, StandsIn v text ∧ word = lowerFrom [] v := by
  -- a text with a blank is cut there, into two shorter ones
  induction hlength : text.length using Nat.strongRecOn generalizing text with
  | ind length ih =>
  by_cases hsolid : ∀ c ∈ text, isBlank c = false
  · rw [standsIn_solid (lowerFrom_solid hsolid []), ne_eq, lowerFrom_eq_nil_iff]
    simp only [standsIn_solid hsolid]
    constructor
    · rintro ⟨hne, rfl⟩
      exact ⟨text, ⟨hne, rfl⟩, rfl⟩
    · rintro ⟨v, ⟨hne, rfl⟩, rfl⟩
      exact ⟨hne, rfl⟩
  · obtain ⟨c, hmem, hblank⟩ : ∃ c ∈ text, isBlank c = true := by
      simpa using hsolid
    obtain ⟨first, second, rfl⟩ := List.append_of_mem hmem
    rw [List.length_append, List.length_cons] at hlength
    rw [lowerFrom_cut hblank, standsIn_cut hblank, ih first.length (by omega) rfl,
      ih second.length (by omega) rfl]
    simp only [standsIn_cut hblank, or_and_right, exists_or]

theorem toList_lowercase (s : String) : (lowercase s).toList = lowerFrom [] s.toList :=
  String.toList_ofList

/-- The words of a text in lower case are its words, each in lower case. -/
theorem isWord_lowercase_iff {word text : String} :
    IsWord word (lowercase text) ↔ ∃ v, IsWord v text ∧ word = lowercase v := by
  rw [IsWord, toList_lowercase, standsIn_lower_iff]
  constructor
  · rintro ⟨v, hv, hword⟩
    refine ⟨String.ofList v, ?_, ?_⟩
    · rwa [IsWord, String.toList_ofList]
    · rw [← String.toList_inj, toList_lowercase, String.toList_ofList, hword]
  · rintro ⟨v, hv, rfl⟩
    exact ⟨v.toList, hv, toList_lowercase v⟩

theorem length_lowercase {word : String} (h : '\u0130' ∉ word.toList) :
    (lowercase word).length = word.length := by
  rw [← String.length_toList, ← String.length_toList, toList_lowercase, length_lowerFrom h]

/-- A blank in front stays in front. -/
theorem lowercase_blank_append {c : Char} (hblank : isBlank c = true) (text : String) :
    (lowercase (String.ofList (c :: text.toList))).toList = c :: (lowercase text).toList := by
  rw [toList_lowercase, toList_lowercase, String.toList_ofList]
  exact lowerFrom_cut hblank [] [] text.toList

end Text

end StreamFusion
