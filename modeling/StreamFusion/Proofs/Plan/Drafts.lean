import Mathlib.Data.List.Induction
import StreamFusion.Plan.Compilation
import StreamFusion.Proofs.Operation.Descriptions
import StreamFusion.Proofs.Plan.Meaning

/-!
# Drafts

What a draft knows after it has read a list of operations: its fields are functions of the
descriptions, its steps count each on its own, and they mean what the operations mean, in baseline
mode without the ranges. The baseline gates then skip in front of all steps and limit behind them.
-/

namespace StreamFusion

variable {α : Type}

/-! ## Appending a step -/

namespace Step

theorem Numbered.concat {gates slots moreGates moreSlots : Nat} {steps : List (Step α)}
    {step : Step α} (h : Numbered gates slots steps) (hgates : gates ≤ moreGates)
    (hslots : slots ≤ moreSlots) (hfits : step.Fits moreGates moreSlots)
    (hgate : ∀ number, step.gate? = some number → gates ≤ number)
    (hslot : ∀ slot, step.slot? = some slot → slots ≤ slot) :
    Numbered moreGates moreSlots (steps ++ [step]) := by
  constructor
  · intro other hother
    rcases List.mem_append.1 hother with hold | hnew
    · exact (h.fits other hold).mono hgates hslots
    · rw [List.mem_singleton.1 hnew]
      exact hfits
  · refine List.pairwise_append.2 ⟨h.apart, List.pairwise_singleton .., ?_⟩
    intro earlier hearlier other hother
    rw [List.mem_singleton.1 hother]
    -- the counter of the new step was handed out to no earlier one
    have hearlier := h.fits earlier hearlier
    constructor
    · intro number hn hm
      exact absurd (hearlier.gate_lt number hn) (Nat.not_lt.2 (hgate number hm))
    · intro slot hs hm
      exact absurd (hearlier.slot_lt slot hs) (Nat.not_lt.2 (hslot slot hm))

theorem Numbered.cons_gate {gates slots : Nat} {steps : List (Step α)}
    (h : Numbered gates slots steps) : Numbered (gates + 1) slots (.gate gates :: steps) := by
  constructor
  · intro step hstep
    rcases List.mem_cons.1 hstep with rfl | hold
    · exact ⟨fun number hn => by rw [← Option.some.inj hn]; omega, nofun, fun _ => rfl⟩
    · exact (h.fits step hold).mono (Nat.le_succ _) (Nat.le_refl _)
  · refine List.pairwise_cons.2 ⟨fun later hlater => ?_, h.apart⟩
    constructor
    · intro number hn hm
      rw [← Option.some.inj hn] at hm
      exact absurd ((h.fits later hlater).gate_lt gates hm) (Nat.lt_irrefl _)
    · exact nofun

theorem Numbered.concat_gate {gates slots : Nat} {steps : List (Step α)}
    (h : Numbered gates slots steps) : Numbered (gates + 1) slots (steps ++ [.gate gates]) := by
  refine h.concat (Nat.le_succ _) (Nat.le_refl _) ⟨?_, nofun, fun _ => rfl⟩ ?_ nofun
  · exact fun number hn => by rw [← Option.some.inj hn]; omega
  · exact fun number hn => Nat.le_of_eq (Option.some.inj hn)

end Step

theorem Plan.index_start (plan : Plan α) (slot : Option Nat) : plan.start.index slot = 0 := by
  cases slot with
  | none => rfl
  | some slot =>
    rw [start, Counters.index, List.getD_eq_getElem?_getD, List.getElem?_replicate]
    split <;> rfl

namespace Draft

variable {d e : Draft α} {step : Step α}

/-- Steps that find their gates do not notice that more gates and slots are handed out. -/
theorem sameIn_start (hgates : d.gates <+: e.gates) (hfits : step.Fits d.gates.length d.slots) :
    step.SameIn e.toPlan.start d.toPlan.start := by
  constructor
  · intro number hnumber
    obtain ⟨more, hmore⟩ := hgates
    have hlt := hfits.gate_lt number hnumber
    show e.gates.getD number _ = d.gates.getD number _
    rw [← hmore, List.getD_eq_getElem?_getD, List.getD_eq_getElem?_getD,
      List.getElem?_append_left hlt]
  · rw [Plan.index_start, Plan.index_start]

theorem onList_start (h : d.toPlan.Numbered) (hgates : d.gates <+: e.gates) (xs : List α) :
    Step.allOnList e.toPlan.start d.steps xs = d.toPlan.onList xs :=
  Step.allOnList_congr (fun step hstep => sameIn_start hgates (h.fits step hstep)) xs

theorem window_newGate {w : Window} (hgates : e.gates = d.gates ++ [w]) :
    e.toPlan.start.window d.gates.length = w := by
  show e.gates.getD d.gates.length _ = w
  rw [hgates, List.getD_eq_getElem?_getD, List.getElem?_concat_length, Option.getD_some]

/-- The new step comes after all earlier ones. -/
theorem onList_concat (h : d.toPlan.Numbered) (hgates : d.gates <+: e.gates)
    (hsteps : e.steps = d.steps ++ [step]) (xs : List α) :
    e.toPlan.onList xs = (d.toPlan.onList xs).bind (step.onList e.toPlan.start) := by
  show Step.allOnList e.toPlan.start e.steps xs = _
  rw [hsteps, Step.allOnList_concat, onList_start h hgates]

/-! ## One more operation -/

theorem ofOps_concat (mode : RangeMode) (ops : List (Op α)) (op : Op α) :
    ofOps mode (ops ++ [op]) = (ofOps mode ops).add mode op := by
  rw [ofOps, List.foldl_append]
  rfl

theorem numbered_call (step : Step α) (h : d.toPlan.Numbered) (hgate : step.gate? = none)
    (hslot : step.slot? = d.slot step.isIndexed) :
    Step.Numbered d.gates.length (d.slotsAfter step.isIndexed) (d.steps ++ [step]) := by
  have hnone : ∀ number, step.gate? ≠ some number := fun number hn => by
    rw [hgate] at hn
    exact absurd hn (by simp)
  cases hindexed : step.isIndexed with
  | false =>
    rw [hindexed] at hslot
    refine h.concat (Nat.le_refl _) (Nat.le_refl _) ⟨fun n hn => absurd hn (hnone n), ?_, ?_⟩
      (fun n hn => absurd hn (hnone n)) ?_
    · exact fun number hs => absurd (hslot.symm.trans hs) (by simp [slot])
    · exact fun _ => hindexed
    · exact fun number hs => absurd (hslot.symm.trans hs) (by simp [slot])
  | true =>
    rw [hindexed] at hslot
    have hfresh : ∀ slot, step.slot? = some slot → slot = d.slots := fun slot hs =>
      (Option.some.inj (hslot.symm.trans hs)).symm
    refine h.concat (Nat.le_refl _) (Nat.le_succ _) ⟨fun n hn => absurd hn (hnone n), ?_, ?_⟩
      (fun n hn => absurd hn (hnone n)) ?_
    · exact fun slot hs => by rw [hfresh slot hs]; exact Nat.lt_succ_self _
    · exact fun hs => absurd (hslot.symm.trans hs) (by simp [slot])
    · exact fun slot hs => Nat.le_of_eq (hfresh slot hs).symm

theorem numbered_add (mode : RangeMode) (h : d.toPlan.Numbered) (op : Op α) :
    (d.add mode op).toPlan.Numbered := by
  cases op with
  | transform f => exact numbered_call (.map f _) h rfl rfl
  | filter test search => exact numbered_call (.test test _) h rfl rfl
  | never indexed search => exact h
  | flatten expand => exact numbered_call (.expand expand _) h rfl rfl
  | range start stop =>
    cases mode with
    | baseline => exact h
    | segmented =>
      by_cases hall : start = 0 ∧ stop = none
      · simp only [add, if_pos hall]
        exact h
      · simp only [add, if_neg hall]
        show Step.Numbered (d.gates ++ [_]).length d.slots _
        rw [List.length_append]
        exact h.concat_gate

/-- The steps of a draft count each on its own. -/
theorem numbered_ofOps (mode : RangeMode) (ops : List (Op α)) :
    (ofOps mode ops).toPlan.Numbered := by
  -- from the back, as a draft reads one more operation at its end
  induction ops using List.reverseRecOn with
  | nil => exact ⟨nofun, .nil⟩
  | append_singleton ops op ih =>
    rw [ofOps_concat]
    exact numbered_add mode ih op

/-- The operations that a draft puts among its steps, besides those that keep nothing. -/
def kept : RangeMode → List (Op α) → List (Op α)
  | .baseline, ops => Op.withoutRanges ops
  | .segmented, ops => ops

theorem kept_append (mode : RangeMode) (ops others : List (Op α)) :
    kept mode (ops ++ others) = kept mode ops ++ kept mode others := by
  cases mode
  · exact Op.withoutRanges_append ops others
  · rfl

/-- A draft that reads one more operation also means one more operation. -/
theorem onList_add (mode : RangeMode) (h : d.toPlan.Numbered) {op : Op α}
    (hop : op.info.isNever = false) (xs : List α) :
    (d.add mode op).toPlan.onList xs =
      (d.toPlan.onList xs).bind (Op.allOnList (kept mode [op])) := by
  have hsame : ∀ {e : Draft α}, e.gates = d.gates → e.steps = d.steps →
      e.toPlan.onList xs = d.toPlan.onList xs := by
    intro e hgates hsteps
    show Step.allOnList e.toPlan.start e.steps xs = _
    rw [hsteps, onList_start h (hgates ▸ List.prefix_refl _)]
  have hcall : ∀ {e : Draft α} {step : Step α}, e.gates = d.gates → e.steps = d.steps ++ [step] →
      (∀ ys, step.onList e.toPlan.start ys = op.onList ys) →
      e.toPlan.onList xs = (d.toPlan.onList xs).bind (Op.allOnList [op]) := by
    intro e step hgates hsteps hstep
    rw [onList_concat h (hgates ▸ List.prefix_refl _) hsteps, Op.allOnList_singleton]
    exact congrArg _ (funext hstep)
  cases op with
  | transform f =>
    have hkept : kept mode [Op.transform f] = [.transform f] := by cases mode <;> rfl
    rw [hkept]
    refine hcall rfl rfl fun ys => ?_
    rw [Step.onList, Plan.index_start, Op.onList]
  | filter test search =>
    have hkept : kept mode [Op.filter test search] = [.filter test search] := by cases mode <;> rfl
    rw [hkept]
    refine hcall rfl rfl fun ys => ?_
    rw [Step.onList, Plan.index_start, Op.onList]
  | never indexed search => exact absurd hop (by simp [Op.info, OpInfo.isNever])
  | flatten expand =>
    have hkept : kept mode [Op.flatten expand] = [.flatten expand] := by cases mode <;> rfl
    rw [hkept]
    refine hcall rfl rfl fun ys => ?_
    rw [Step.onList, Plan.index_start, Op.onList]
  | range start stop =>
    cases mode with
    | baseline =>
      rw [hsame rfl rfl]
      exact (Option.bind_fun_some _).symm
    | segmented =>
      simp only [kept]
      by_cases hall : start = 0 ∧ stop = none
      · -- a range that keeps everything gets no gate
        obtain ⟨rfl, rfl⟩ := hall
        rw [hsame rfl rfl, Op.allOnList_singleton]
        exact (Option.bind_fun_some _).symm
      · rw [Op.allOnList_singleton]
        simp only [add, if_neg hall]
        rw [onList_concat h (List.prefix_append ..) rfl]
        refine congrArg _ (funext fun ys => ?_)
        rw [Op.onList_range, Step.onList, window_newGate rfl]

/-- The steps of a draft mean what the operations among them mean. -/
theorem onList_ofOps (mode : RangeMode) {ops : List (Op α)}
    (hops : ∀ op ∈ ops, op.info.isNever = false) (xs : List α) :
    (ofOps mode ops).toPlan.onList xs = Op.allOnList (kept mode ops) xs := by
  induction ops using List.reverseRecOn with
  | nil => cases mode <;> rfl
  | append_singleton ops op ih =>
    have hop : op.info.isNever = false := hops op (by simp)
    rw [ofOps_concat, onList_add mode (numbered_ofOps mode ops) hop,
      ih fun other hother => hops other (List.mem_append_left _ hother), kept_append,
      Op.allOnList_append]

/-! ## What the fields say -/

theorem tighter_eq_zero {limit other : Option Nat} :
    tighter limit other = some 0 ↔ limit = some 0 ∨ other = some 0 := by
  cases limit <;> cases other <;> simp [tighter]

@[simp] theorem limitAfter_zero (mode : RangeMode) (limit : Option Nat) :
    limitAfter mode limit 0 none = limit := by
  cases mode <;> cases limit <;> rfl

/-- The limit of the ranges that are described, after an earlier limit. -/
def limitFrom (mode : RangeMode) (limit : Option Nat) (infos : List OpInfo) : Option Nat :=
  infos.foldl (fun limit info => limitAfter mode limit info.start info.stop) limit

/-- What one more operation changes besides steps and counters, whether or not it gets a gate. -/
theorem add_fields (mode : RangeMode) (d : Draft α) (op : Op α) :
    (d.add mode op).never = (d.never || op.info.isNever)
      ∧ (d.add mode op).reshaping = d.reshaping.or op.info.construct?
      ∧ (d.add mode op).maxEmits = limitAfter mode d.maxEmits op.info.start op.info.stop
      ∧ (d.skipInitial ≤ maxCount →
        (d.add mode op).skipInitial = addCount d.skipInitial op.info.start) := by
  have hnever : ∀ b : Bool, b = (b || false) := fun b => (Bool.or_false b).symm
  have hreshaping : d.reshaping = d.reshaping.or none := Option.or_none.symm
  have hlimit : d.maxEmits = limitAfter mode d.maxEmits 0 none := (limitAfter_zero mode _).symm
  have hskip : d.skipInitial ≤ maxCount → d.skipInitial = addCount d.skipInitial 0 :=
    fun h => (Nat.min_eq_left h).symm
  cases op with
  | transform f => exact ⟨hnever _, hreshaping, hlimit, hskip⟩
  | filter test search => exact ⟨hnever _, rfl, hlimit, hskip⟩
  | never indexed search => exact ⟨(Bool.or_true _).symm, rfl, hlimit, hskip⟩
  | flatten expand => exact ⟨hnever _, rfl, hlimit, hskip⟩
  | range start stop =>
    cases mode with
    | baseline => exact ⟨hnever _, hreshaping, rfl, fun _ => rfl⟩
    | segmented =>
      simp only [add]
      split
      · exact ⟨hnever _, hreshaping, rfl, fun _ => rfl⟩
      · exact ⟨hnever _, hreshaping, rfl, fun _ => rfl⟩

theorem never_ofOps (mode : RangeMode) (ops : List (Op α)) :
    (ofOps mode ops).never = (ops.map Op.info).any OpInfo.isNever := by
  induction ops using List.reverseRecOn with
  | nil => rfl
  | append_singleton ops op ih => simp [ofOps_concat, (add_fields ..).1, ih]

theorem exists_isNever {mode : RangeMode} {ops : List (Op α)} (h : (ofOps mode ops).never = true) :
    ∃ op ∈ ops, op.info.isNever = true := by
  rwa [never_ofOps, List.any_map, List.any_eq_true] at h

theorem isNever_eq_false {mode : RangeMode} {ops : List (Op α)}
    (h : ¬ (ofOps mode ops).never = true) : ∀ op ∈ ops, op.info.isNever = false := by
  intro op hop
  by_contra hnever
  rw [never_ofOps, List.any_map, List.any_eq_true] at h
  exact h ⟨op, hop, (Bool.not_eq_false _).mp hnever⟩

theorem reshaping_ofOps (mode : RangeMode) (ops : List (Op α)) :
    (ofOps mode ops).reshaping = (ops.map Op.info).findSome? OpInfo.construct? := by
  induction ops using List.reverseRecOn with
  | nil => rfl
  | append_singleton ops op ih => simp [ofOps_concat, (add_fields ..).2.1, ih]

theorem maxEmits_ofOps (mode : RangeMode) (ops : List (Op α)) :
    (ofOps mode ops).maxEmits = limitFrom mode none (ops.map Op.info) := by
  induction ops using List.reverseRecOn with
  | nil => rfl
  | append_singleton ops op ih => simp [ofOps_concat, (add_fields ..).2.2.1, ih, limitFrom]

theorem skipInitial_ofOps (mode : RangeMode) (ops : List (Op α)) :
    (ofOps mode ops).skipInitial = min (OpInfo.skips (ops.map Op.info)) maxCount := by
  induction ops using List.reverseRecOn with
  | nil => rfl
  | append_singleton ops op ih =>
    have hle : (ofOps mode ops).skipInitial ≤ maxCount := by
      rw [ih]
      exact Nat.min_le_right ..
    rw [ofOps_concat, (add_fields ..).2.2.2 hle, ih, addCount, List.map_append, OpInfo.skips_append]
    simp only [List.map_cons, List.map_nil, OpInfo.skips_cons, OpInfo.skips_nil]
    omega

theorem limitAfter_eq_zero {mode : RangeMode} {limit stop : Option Nat} {start : Nat}
    (h : limit = some 0 ∨ stop.map (· - start) = some 0) :
    limitAfter mode limit start stop = some 0 := by
  refine tighter_eq_zero.2 (h.imp_left fun hlimit => ?_)
  rw [hlimit]
  exact congrArg some (Nat.zero_sub _)

/-- A new gate has the limit of the operation that it was made for. -/
theorem mem_gates_add {mode : RangeMode} {d : Draft α} {op : Op α} {w : Window}
    (hmem : w ∈ (d.add mode op).gates) :
    w ∈ d.gates ∨ w.take = op.info.stop.map (· - op.info.start) := by
  cases op with
  | range start stop =>
    cases mode with
    | baseline => exact .inl hmem
    | segmented =>
      simp only [add] at hmem
      split at hmem
      · exact .inl hmem
      · refine (List.mem_append.1 hmem).imp_right fun hlast => ?_
        rw [List.mem_singleton.1 hlast]
        rfl
  | _ => exact .inl hmem

/-- A gate that never lets anything pass limits the whole draft to nothing. -/
theorem maxEmits_of_gate {mode : RangeMode} {ops : List (Op α)} {w : Window}
    (hmem : w ∈ (ofOps mode ops).gates) (htake : w.take = some 0) :
    (ofOps mode ops).maxEmits = some 0 := by
  induction ops using List.reverseRecOn with
  | nil => exact absurd hmem (by simp [ofOps, empty])
  | append_singleton ops op ih =>
    rw [ofOps_concat] at hmem ⊢
    rw [(add_fields ..).2.2.1]
    exact limitAfter_eq_zero ((mem_gates_add hmem).imp ih fun hlast => hlast.symm.trans htake)

/-- Without limits among the operations, no gate has a limit, and neither has the draft. -/
theorem unlimited_ofOps (mode : RangeMode) {ops : List (Op α)}
    (hops : ∀ op ∈ ops, op.info.stop = none) :
    (∀ w ∈ (ofOps mode ops).gates, w.take = none) ∧ (ofOps mode ops).maxEmits = none := by
  induction ops using List.reverseRecOn with
  | nil => exact ⟨nofun, rfl⟩
  | append_singleton ops op ih =>
    obtain ⟨hgates, hlimit⟩ := ih fun op hop => hops op (List.mem_append_left _ hop)
    have hstop : op.info.stop = none := hops op (by simp)
    rw [ofOps_concat]
    refine ⟨fun w hmem => ?_, ?_⟩
    · rcases mem_gates_add hmem with hold | hlast
      · exact hgates w hold
      · rw [hlast, hstop, Option.map_none]
    · rw [(add_fields ..).2.2.1, hlimit, hstop]
      rfl

/-! ## The baseline gates -/

theorem numbered_withLeadingGate (h : d.toPlan.Numbered) : d.withLeadingGate.toPlan.Numbered := by
  unfold withLeadingGate
  split
  · exact h
  · show Step.Numbered (d.gates ++ [_]).length d.slots _
    rw [List.length_append]
    exact h.cons_gate

theorem numbered_withTrailingGate (h : d.toPlan.Numbered) :
    d.withTrailingGate.toPlan.Numbered := by
  unfold withTrailingGate
  split
  · exact h
  · show Step.Numbered (d.gates ++ [_]).length d.slots _
    rw [List.length_append]
    exact h.concat_gate

theorem maxEmits_withLeadingGate (d : Draft α) : d.withLeadingGate.maxEmits = d.maxEmits := by
  unfold withLeadingGate
  split <;> rfl

theorem maxEmits_withTrailingGate (d : Draft α) : d.withTrailingGate.maxEmits = d.maxEmits := by
  unfold withTrailingGate
  split <;> rfl

/-- The gates in front of the steps and behind them are the only new steps. -/
theorem mem_steps_of_framed {step : Step α}
    (h : step ∈ d.withLeadingGate.withTrailingGate.steps) :
    step ∈ d.steps ∨ ∃ number, step = .gate number := by
  have hleading : step ∈ d.withLeadingGate.steps ∨ ∃ number, step = .gate number := by
    unfold withTrailingGate at h
    split at h
    · exact .inl h
    · exact (List.mem_append.1 h).imp_right fun hlast => ⟨_, List.mem_singleton.1 hlast⟩
  refine hleading.elim (fun hmem => ?_) .inr
  unfold withLeadingGate at hmem
  split at hmem
  · exact .inl hmem
  · exact (List.mem_cons.1 hmem).symm.imp_right fun hfirst => ⟨_, hfirst⟩

/-- The leading gate passes over the first elements of the source. -/
theorem onList_withLeadingGate (h : d.toPlan.Numbered) (xs : List α) :
    d.withLeadingGate.toPlan.onList xs = d.toPlan.onList (xs.drop d.skipInitial) := by
  unfold withLeadingGate
  by_cases hskip : d.skipInitial = 0
  · rw [if_pos hskip, hskip, List.drop_zero]
  · rw [if_neg hskip]
    show Step.allOnList _ (.gate d.gates.length :: d.steps) xs = _
    rw [Step.allOnList, Step.onList, window_newGate rfl]
    exact onList_start h (List.prefix_append ..) _

/-- The trailing gate limits what comes out of the last step. -/
theorem onList_withTrailingGate (h : d.toPlan.Numbered) (xs : List α) :
    d.withTrailingGate.toPlan.onList xs = (d.toPlan.onList xs).map (upTo d.maxEmits) := by
  unfold withTrailingGate
  cases hlimit : d.maxEmits with
  | none => exact Option.map_id'.symm
  | some most =>
    simp only
    rw [onList_concat h (List.prefix_append ..) rfl, Option.map_eq_bind]
    refine congrArg _ (funext fun ys => ?_)
    rw [Step.onList, window_newGate rfl]
    rfl

end Draft

end StreamFusion
