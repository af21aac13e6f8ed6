import StreamFusion.Proofs.Plan.Appending

/-!
# Verdicts

Planning decides from the descriptions of the operations alone, and in a fixed order: whether
nothing can pass, then in baseline mode whether a skip meets a filter or a flatten, then whether a
limit stands in front of a flatten; in segmented mode only whether there are too many gates. What it
decides is said here without drafts (`verdict_iff`).
-/

namespace StreamFusion

variable {α : Type}

namespace OpInfo

/-! ## Limits and constructs -/

/-- How many elements the operation keeps behind its start, if it stops anywhere. -/
def extent? : OpInfo → Option Nat
  | .range start (some stop) => some (stop - start)
  | _ => none

/-- The limit in force after a range that takes its elements from what the limit before it lets
pass. -/
def limitBehind (limit : Option Nat) : OpInfo → Option Nat
  | .range start (some stop) =>
    match limit with
    | none => some (stop - start)
    | some old => some (min (old - start) (stop - start))
  | .range start none => limit.map (· - start)
  | _ => limit

/-- The limit in force behind all of the operations. -/
def runningLimit (infos : List OpInfo) : Option Nat := infos.foldl limitBehind none

/-- The limit of all ranges together. Where every range counts at its place, only the smallest
extent is certain. -/
def composedLimit : RangeMode → List OpInfo → Option Nat
  | .baseline, infos => runningLimit infos
  | .segmented, infos => (infos.filterMap extent?).min?

/-- It can be told that nothing passes. -/
def LetNothing (mode : RangeMode) (infos : List OpInfo) : Prop :=
  (∃ info ∈ infos, info.isNever = true) ∨ composedLimit mode infos = some 0

/-- The first filter or flatten is a construct of this name. -/
def FirstConstruct (infos : List OpInfo) (construct : String) : Prop :=
  ∃ before info behind, infos = before ++ info :: behind
    ∧ (∀ earlier ∈ before, earlier.construct? = none) ∧ info.construct? = some construct

/-- One of the operations is a range that stops somewhere. -/
def HasStop (infos : List OpInfo) : Prop := ∃ info ∈ infos, info.stop ≠ none

/-- Does the operation replace elements by any number of elements? -/
def isFlatten : OpInfo → Bool
  | .flatten _ => true
  | _ => false

/-- A flatten stands behind a range that stops somewhere. -/
def LimitsFlatten (infos : List OpInfo) : Prop :=
  ∃ before info behind, infos = before ++ info :: behind
    ∧ info.isFlatten = true ∧ HasStop before

/-- At the first flatten behind a range that stops somewhere, this is the limit in force. -/
def LimitAtFlatten (infos : List OpInfo) (take : Nat) : Prop :=
  ∃ before info behind, infos = before ++ info :: behind
    ∧ info.isFlatten = true ∧ HasStop before
    ∧ ¬ LimitsFlatten before ∧ runningLimit before = some take

/-- Does the operation get a gate of its own, where every range counts at its place? -/
def isSegment : OpInfo → Bool
  | .range start stop => ¬ (start = 0 ∧ stop = none)
  | _ => false

/-- Planning has this reason to refuse operations that may let something pass. -/
def Refused (config : Config) (infos : List OpInfo) : Refusal → Prop
  | .skipWithFilter skip construct =>
    config.rangeMode = .baseline ∧ 0 < skip ∧ skip = min (skips infos) maxCount
      ∧ FirstConstruct infos construct
  | .limitBeforeFlatten take =>
    config.rangeMode = .baseline
      ∧ ¬ (0 < skips infos ∧ ∃ info ∈ infos, info.construct? ≠ none)
      ∧ LimitAtFlatten infos take
  | .tooManySegments segments cap =>
    config.rangeMode = .segmented ∧ config.overflow = .reject
      ∧ segments = infos.countP isSegment ∧ cap = config.segmentCap ∧ cap < segments
  | _ => False

theorem limitBehind_eq (limit : Option Nat) (info : OpInfo) :
    limitBehind limit info = Draft.limitAfter .baseline limit info.start info.stop := by
  cases info with
  | range start stop => cases stop <;> cases limit <;> rfl
  | _ => cases limit <;> rfl

theorem extent?_eq (info : OpInfo) : info.extent? = info.stop.map (· - info.start) := by
  cases info with
  | range start stop => cases stop <;> rfl
  | _ => rfl

theorem runningLimit_eq (infos : List OpInfo) :
    runningLimit infos = Draft.limitFrom .baseline none infos := by
  rw [runningLimit, Draft.limitFrom]
  exact congrArg (fun f => List.foldl f none infos) (funext₂ limitBehind_eq)

theorem min?_append_toList (extents : List Nat) (extent : Option Nat) :
    (extents ++ extent.toList).min? = Draft.tighter extents.min? extent := by
  cases extent with
  | none =>
    rw [Option.toList_none, List.append_nil]
    cases extents.min? <;> rfl
  | some extent =>
    cases extents with
    | nil => rfl
    | cons first rest =>
      rw [Option.toList_some, List.cons_append, List.min?_cons', List.min?_cons',
        List.foldl_append]
      rfl

/-- The limit that a draft composes. -/
theorem composedLimit_eq (mode : RangeMode) (infos : List OpInfo) :
    composedLimit mode infos = Draft.limitFrom mode none infos := by
  cases mode with
  | baseline => exact runningLimit_eq infos
  | segmented =>
    induction infos using List.reverseRecOn with
    | nil => rfl
    | append_singleton infos info ih =>
      have hlast : [info].filterMap extent? = info.extent?.toList := by
        cases h : info.extent? <;> simp [h]
      rw [composedLimit] at ih ⊢
      rw [List.filterMap_append, hlast, min?_append_toList, ih, Draft.limitFrom, Draft.limitFrom,
        List.foldl_append, extent?_eq]
      -- a later start leaves the earlier limit alone
      exact congrArg (fun limit => Draft.tighter limit _) Option.map_id'.symm

theorem runningLimit_eq_none {infos : List OpInfo} :
    runningLimit infos = none ↔ ¬ HasStop infos := by
  induction infos using List.reverseRecOn with
  | nil => simp [runningLimit, HasStop]
  | append_singleton infos info ih =>
    have hstep : runningLimit (infos ++ [info]) = limitBehind (runningLimit infos) info := by
      rw [runningLimit, List.foldl_append]
      rfl
    have hlast : limitBehind (runningLimit infos) info = none ↔
        runningLimit infos = none ∧ info.stop = none := by
      rw [limitBehind_eq, Draft.limitAfter]
      cases runningLimit infos <;> cases info.stop <;> simp [Draft.tighter]
    rw [hstep, hlast, ih]
    simp [HasStop]

theorem firstConstruct_iff {infos : List OpInfo} {construct : String} :
    FirstConstruct infos construct ↔ infos.findSome? construct? = some construct := by
  rw [List.findSome?_eq_some_iff]
  constructor
  · rintro ⟨before, info, behind, hinfos, hbefore, hinfo⟩
    exact ⟨before, info, behind, hinfos, hinfo, hbefore⟩
  · rintro ⟨before, info, behind, hinfos, hinfo, hbefore⟩
    exact ⟨before, info, behind, hinfos, hbefore, hinfo⟩

theorem exists_firstConstruct {infos : List OpInfo} :
    (∃ construct, FirstConstruct infos construct) ↔ ∃ info ∈ infos, info.construct? ≠ none := by
  simp only [firstConstruct_iff, ← Option.ne_none_iff_exists', ne_eq, List.findSome?_eq_none_iff]
  simp

/-- In segmented mode only the gates can be too many. -/
theorem refused_of_segmented {config : Config} (hmode : config.rangeMode = .segmented)
    {infos : List OpInfo} {refusal : Refusal} :
    Refused config infos refusal ↔
      config.overflow = .reject ∧ config.segmentCap < infos.countP isSegment
        ∧ refusal = .tooManySegments (infos.countP isSegment) config.segmentCap := by
  cases refusal with
  | tooManySegments segments cap =>
    constructor
    · rintro ⟨-, hreject, rfl, rfl, hmore⟩
      exact ⟨hreject, hmore, rfl⟩
    · rintro ⟨hreject, hmore, hrefusal⟩
      obtain ⟨rfl, rfl⟩ := Refusal.tooManySegments.inj hrefusal
      exact ⟨hmode, hreject, rfl, rfl, hmore⟩
  | _ => simp [Refused, hmode]

/-- A list with one more operation is split at the new one or before it. -/
theorem concat_eq_append_cons {infos before behind : List OpInfo} {last info : OpInfo} :
    infos ++ [last] = before ++ info :: behind ↔
      (∃ rest, infos = before ++ info :: rest ∧ behind = rest ++ [last])
        ∨ (infos = before ∧ last = info ∧ behind = []) := by
  constructor
  · intro h
    rcases behind.eq_nil_or_concat with rfl | ⟨rest, other, rfl⟩
    · obtain ⟨hbefore, hlast⟩ := List.append_inj' h rfl
      exact .inr ⟨hbefore, List.head_eq_of_cons_eq hlast, rfl⟩
    · rw [List.concat_eq_append, ← List.cons_append, ← List.append_assoc] at h
      obtain ⟨hinfos, hlast⟩ := List.append_inj' h rfl
      exact .inl ⟨rest, hinfos, by rw [List.concat_eq_append, List.head_eq_of_cons_eq hlast]⟩
  · rintro (⟨rest, rfl, rfl⟩ | ⟨rfl, rfl, rfl⟩)
    · simp
    · rfl

theorem limitsFlatten_concat {infos : List OpInfo} {last : OpInfo} :
    LimitsFlatten (infos ++ [last]) ↔
      LimitsFlatten infos ∨ (last.isFlatten = true ∧ HasStop infos) := by
  constructor
  · rintro ⟨before, info, behind, hinfos, hrest⟩
    rcases concat_eq_append_cons.1 hinfos with ⟨rest, hinfos, -⟩ | ⟨rfl, rfl, -⟩
    · exact .inl ⟨before, info, rest, hinfos, hrest⟩
    · exact .inr hrest
  · rintro (⟨before, info, behind, rfl, hrest⟩ | hrest)
    · exact ⟨before, info, behind ++ [last], by simp, hrest⟩
    · exact ⟨infos, last, [], rfl, hrest⟩

theorem limitAtFlatten_concat {infos : List OpInfo} {last : OpInfo} {take : Nat} :
    LimitAtFlatten (infos ++ [last]) take ↔
      LimitAtFlatten infos take ∨ (¬ LimitsFlatten infos
        ∧ last.isFlatten = true ∧ runningLimit infos = some take) := by
  constructor
  · rintro ⟨before, info, behind, hinfos, hflatten, hstop, hfirst, htake⟩
    rcases concat_eq_append_cons.1 hinfos with ⟨rest, hinfos, -⟩ | ⟨rfl, rfl, -⟩
    · exact .inl ⟨before, info, rest, hinfos, hflatten, hstop, hfirst, htake⟩
    · exact .inr ⟨hfirst, hflatten, htake⟩
  · rintro (⟨before, info, behind, rfl, hrest⟩ | ⟨hfirst, hflatten, htake⟩)
    · exact ⟨before, info, behind ++ [last], by simp, hrest⟩
    · have hstop : HasStop infos := by
        by_contra hnone
        rw [runningLimit_eq_none.2 hnone] at htake
        exact absurd htake (by simp)
      exact ⟨infos, last, [], rfl, hflatten, hstop, hfirst, htake⟩

/-- A flatten is one of the constructs. -/
theorem LimitAtFlatten.exists_construct {infos : List OpInfo} {take : Nat}
    (h : LimitAtFlatten infos take) : ∃ info ∈ infos, info.construct? ≠ none := by
  obtain ⟨before, info, behind, rfl, hflatten, -⟩ := h
  refine ⟨info, by simp, ?_⟩
  cases info with
  | flatten indexed => simp [construct?]
  | _ => exact absurd hflatten (by simp [isFlatten])

theorem limitsFlatten_iff {infos : List OpInfo} :
    LimitsFlatten infos ↔ ∃ take, LimitAtFlatten infos take := by
  induction infos using List.reverseRecOn with
  | nil => simp [LimitsFlatten, LimitAtFlatten]
  | append_singleton infos last ih =>
    have hlimit : HasStop infos ↔ ∃ take, runningLimit infos = some take := by
      rw [← Option.ne_none_iff_exists', ne_eq, runningLimit_eq_none, not_not]
    simp only [limitsFlatten_concat, limitAtFlatten_concat, exists_or, exists_and_left, ← ih,
      ← hlimit]
    by_cases hfirst : LimitsFlatten infos <;> simp [hfirst]

end OpInfo

/-! ## What a draft knows -/

namespace Draft

variable {config : Config} {ops : List (Op α)}

theorem letsNothing_iff (mode : RangeMode) (ops : List (Op α)) :
    (ofOps mode ops).LetsNothing ↔ OpInfo.LetNothing mode (ops.map Op.info) := by
  rw [LetsNothing, OpInfo.LetNothing, never_ofOps, List.any_eq_true, maxEmits_ofOps,
    OpInfo.composedLimit_eq]

theorem limitBeforeFlatten_add (mode : RangeMode) (d : Draft α) (op : Op α) :
    (d.add mode op).limitBeforeFlatten =
      d.limitBeforeFlatten.or (if op.info.isFlatten then d.maxEmits else none) := by
  have hkeep : d.limitBeforeFlatten = d.limitBeforeFlatten.or none := Option.or_none.symm
  cases op with
  | flatten expand => rfl
  | range start stop =>
    cases mode with
    | baseline => exact hkeep
    | segmented =>
      simp only [add]
      split
      · exact hkeep
      · exact hkeep
  | _ => exact hkeep

theorem limitBeforeFlatten_ofOps (ops : List (Op α)) (take : Nat) :
    (ofOps .baseline ops).limitBeforeFlatten = some take ↔
      OpInfo.LimitAtFlatten (ops.map Op.info) take := by
  induction ops using List.reverseRecOn generalizing take with
  | nil => simp [ofOps, empty, OpInfo.LimitAtFlatten]
  | append_singleton ops op ih =>
    have hnone : (ofOps .baseline ops).limitBeforeFlatten = none ↔
        ¬ OpInfo.LimitsFlatten (ops.map Op.info) := by
      rw [OpInfo.limitsFlatten_iff, ← not_iff_not, not_not, ← ne_eq, Option.ne_none_iff_exists']
      exact exists_congr ih
    rw [ofOps_concat, limitBeforeFlatten_add, Option.or_eq_some_iff, hnone, ih, List.map_append,
      List.map_singleton, OpInfo.limitAtFlatten_concat, maxEmits_ofOps, ← OpInfo.runningLimit_eq]
    -- the new limit counts only at a flatten
    cases op.info.isFlatten <;> simp

theorem length_gates_ofOps (ops : List (Op α)) :
    (ofOps .segmented ops).gates.length = (ops.map Op.info).countP OpInfo.isSegment := by
  induction ops using List.reverseRecOn with
  | nil => rfl
  | append_singleton ops op ih =>
    rw [ofOps_concat, List.map_append, List.countP_append, ← ih]
    cases op with
    | range start stop =>
      by_cases hall : start = 0 ∧ stop = none
      · simp [add, Op.info, OpInfo.isSegment, hall]
      · simp only [add, if_neg hall, List.length_append, List.map_singleton, Op.info]
        rw [List.countP_singleton, OpInfo.isSegment, if_pos (decide_eq_true hall),
          List.length_singleton]
    | _ => rfl

/-- Why a draft is refused in baseline mode. -/
theorem baselinePlan_error {d : Draft α} {refusal : Refusal} :
    d.baselinePlan = .error refusal ↔
      (∃ construct, d.reshaping = some construct ∧ d.skipInitial ≠ 0
        ∧ refusal = .skipWithFilter d.skipInitial construct)
      ∨ (∃ construct take, d.reshaping = some construct ∧ d.skipInitial = 0
        ∧ d.limitBeforeFlatten = some take ∧ refusal = .limitBeforeFlatten take) := by
  unfold baselinePlan
  cases d.reshaping with
  | none => simp
  | some construct =>
    by_cases hskip : d.skipInitial = 0
    · cases d.limitBeforeFlatten with
      | none => simp [hskip]
      | some take => simp [hskip, eq_comm]
    · simp [hskip, eq_comm]

/-- What baseline planning gives where something may pass. -/
theorem verdict_of_baseline (hmode : config.rangeMode = .baseline)
    (hpasses : ¬ (ofOps .baseline ops).LetsNothing) :
    (compile ops config).verdict = (ofOps .baseline ops).baselinePlan := by
  have hnever : ¬ ((ofOps .baseline ops).never = true
      ∨ (ofOps .baseline ops).maxEmits = some 0) := hpasses
  rw [compile, Compilation.ofDraft, hmode, if_neg hnever]
  cases (ofOps .baseline ops).baselinePlan <;> rfl

/-- The reasons of baseline planning are those that the descriptions tell. -/
theorem refused_of_baseline (hmode : config.rangeMode = .baseline) (ops : List (Op α))
    (refusal : Refusal) :
    (ofOps .baseline ops).baselinePlan = .error refusal ↔
      OpInfo.Refused config (ops.map Op.info) refusal := by
  have hconstruct : ∀ construct, (ofOps .baseline ops).reshaping = some construct ↔
      OpInfo.FirstConstruct (ops.map Op.info) construct := fun construct => by
    rw [reshaping_ofOps, OpInfo.firstConstruct_iff]
  have hskip : (ofOps .baseline ops).skipInitial ≠ 0 ↔ 0 < OpInfo.skips (ops.map Op.info) := by
    have hmax : 0 < maxCount := by decide
    rw [skipInitial_ofOps]
    omega
  rw [baselinePlan_error]
  simp only [hconstruct, hskip, limitBeforeFlatten_ofOps]
  constructor
  · rintro (⟨construct, hfirst, hskips, rfl⟩ | ⟨construct, take, hfirst, hskips, htake, rfl⟩)
    · exact ⟨hmode, Nat.pos_of_ne_zero (hskip.2 hskips), skipInitial_ofOps .baseline ops, hfirst⟩
    · exact ⟨hmode, fun hboth => hskip.2 hboth.1 hskips, htake⟩
  · intro hrefused
    cases refusal with
    | skipWithFilter skip construct =>
      obtain ⟨-, hpositive, hskips, hfirst⟩ := hrefused
      rw [← skipInitial_ofOps .baseline ops] at hskips
      exact .inl ⟨construct, hfirst, hskip.1 (by omega), by rw [hskips]⟩
    | limitBeforeFlatten take =>
      obtain ⟨-, hskips, htake⟩ := hrefused
      -- the flatten that meets the limit is itself a construct
      have hsome := htake.exists_construct
      obtain ⟨construct, hfirst⟩ := OpInfo.exists_firstConstruct.2 hsome
      have hnone : ¬ 0 < OpInfo.skips (ops.map Op.info) := fun h => hskips ⟨h, hsome⟩
      exact .inr ⟨construct, take, hfirst, Decidable.not_not.1 (mt hskip.1 hnone), htake, rfl⟩
    | tooManySegments segments cap => exact absurd (hmode.symm.trans hrefused.1) (by simp)
    | emptyReduce => exact hrefused.elim
    | consumed what => exact hrefused.elim

end Draft

/-! ## The verdict -/

section Verdict

variable {ops : List (Op α)} {config : Config} {refusal : Refusal} {plan : Plan α}

theorem verdict_of_letsNothing (h : (Draft.ofOps config.rangeMode ops).LetsNothing) :
    (compile ops config).verdict = .ok .nothing := by
  have hnever : (Draft.ofOps config.rangeMode ops).never = true
      ∨ (Draft.ofOps config.rangeMode ops).maxEmits = some 0 := h
  rw [compile, Compilation.ofDraft, if_pos hnever]

/-- Where something may pass, the reasons to refuse are those that the descriptions tell. -/
theorem verdict_error_iff (h : ¬ (Draft.ofOps config.rangeMode ops).LetsNothing) :
    (compile ops config).verdict = .error refusal ↔
      OpInfo.Refused config (ops.map Op.info) refusal := by
  cases hmode : config.rangeMode with
  | baseline =>
    rw [hmode] at h
    rw [Draft.verdict_of_baseline hmode h]
    exact Draft.refused_of_baseline hmode ops refusal
  | segmented =>
    rw [hmode] at h
    rw [verdict_of_segmented hmode, if_neg h, Draft.length_gates_ofOps,
      OpInfo.refused_of_segmented hmode]
    by_cases hfits : (ops.map Op.info).countP OpInfo.isSegment ≤ config.segmentCap
        ∨ config.overflow = .fallback
    · rw [if_pos hfits]
      refine iff_of_false (by simp) ?_
      rintro ⟨hreject, hmore, -⟩
      rcases hfits with hfits | hfallback
      · exact Nat.not_le_of_lt hmore hfits
      · exact absurd (hreject.symm.trans hfallback) (by simp)
    · rw [if_neg hfits, Except.error.injEq]
      obtain ⟨hmore, hoverflow⟩ := not_or.1 hfits
      have hreject : config.overflow = .reject := by
        cases h : config.overflow with
        | reject => rfl
        | fallback => exact absurd h hoverflow
      rw [and_iff_right hreject, and_iff_right (Nat.lt_of_not_le hmore), eq_comm]

/-- Where something may pass, the plan does not say that nothing does. -/
theorem never_of_verdict (h : ¬ (Draft.ofOps config.rangeMode ops).LetsNothing)
    (hplan : (compile ops config).verdict = .ok plan) : plan.never = false := by
  rcases compile_cases hplan with ⟨hnothing, -⟩ | ⟨-, ⟨-, rfl⟩ | ⟨-, hplan⟩⟩
  · exact absurd hnothing h
  · rfl
  · rw [(Draft.baselinePlan_ok hplan).1]
    rfl

end Verdict

/-- What planning gives for any operations: the plan that lets nothing pass exactly where that can
be told, and otherwise a refusal exactly where there is a reason for it. -/
theorem verdict_iff (ops : List (Op α)) (config : Config) :
    let infos := ops.map Op.info
    let verdict := (compile ops config).verdict
    (verdict = .ok .nothing ↔ OpInfo.LetNothing config.rangeMode infos)
      ∧ (∀ refusal, verdict = .error refusal ↔
        ¬ OpInfo.LetNothing config.rangeMode infos ∧ OpInfo.Refused config infos refusal)
      ∧ ((∃ plan, verdict = .ok plan ∧ plan.never = false) ↔
        ¬ OpInfo.LetNothing config.rangeMode infos
          ∧ ∀ refusal, ¬ OpInfo.Refused config infos refusal) := by
  intro infos verdict
  have hnothing := Draft.letsNothing_iff config.rangeMode ops
  by_cases h : (Draft.ofOps config.rangeMode ops).LetsNothing
  · have hlet : OpInfo.LetNothing config.rangeMode infos := hnothing.1 h
    have hverdict : verdict = .ok .nothing := verdict_of_letsNothing h
    rw [hverdict]
    refine ⟨iff_of_true rfl hlet, fun refusal => iff_of_false (by simp) fun h => h.1 hlet,
      iff_of_false ?_ fun h => h.1 hlet⟩
    rintro ⟨plan, hplan, hnever⟩
    rw [← Except.ok.inj hplan] at hnever
    exact absurd hnever (by simp [Plan.nothing])
  · have hlet : ¬ OpInfo.LetNothing config.rangeMode infos := mt hnothing.2 h
    have herror : ∀ refusal, verdict = .error refusal ↔ OpInfo.Refused config infos refusal :=
      fun refusal => verdict_error_iff h
    refine ⟨iff_of_false (fun hplan => ?_) hlet, fun refusal => ?_, ?_⟩
    · exact absurd (never_of_verdict h hplan) (by simp [Plan.nothing])
    · rw [herror, and_iff_right hlet]
    · simp only [← herror, and_iff_right hlet]
      constructor
      · rintro ⟨plan, hplan, -⟩ refusal herror
        exact absurd (hplan.symm.trans herror) (by simp)
      · intro hnone
        cases hverdict : verdict with
        | error refusal => exact absurd hverdict (hnone refusal)
        | ok plan => exact ⟨plan, rfl, never_of_verdict h hverdict⟩

end StreamFusion
