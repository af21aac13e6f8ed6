import StreamFusion.Proofs.Operation.Laws

/-!
# What descriptions tell

What the description of an operation tells of its ranges and callbacks, and what is left of a list
of operations without its ranges. Everything that planning decides, it decides from the
descriptions.
-/

namespace StreamFusion

variable {α : Type}

namespace OpInfo

/-- How many elements the operation passes over. -/
def start : OpInfo → Nat
  | .range start _ => start
  | _ => 0

/-- Where the operation stops to keep elements. -/
def stop : OpInfo → Option Nat
  | .range _ stop => stop
  | _ => none

/-- Is the operation a range? -/
def isRange : OpInfo → Bool
  | .range .. => true
  | _ => false

/-- Is the operation a filter that keeps nothing? -/
def isNever : OpInfo → Bool
  | .filter _ never _ => never
  | _ => false

/-- Does the callback of the operation take an index? -/
def isIndexed : OpInfo → Bool
  | .transform indexed | .filter indexed _ _ | .flatten indexed => indexed
  | .range .. => false

/-- The name of an operation that may change the number of elements and is not a range. -/
def construct? : OpInfo → Option String
  | .filter .. => some "filter"
  | .flatten _ => some "flatten"
  | _ => none

/-- How many elements all ranges pass over. -/
def skips : List OpInfo → Nat
  | [] => 0
  | info :: infos => info.start + skips infos

@[simp] theorem skips_nil : skips [] = 0 := rfl

@[simp] theorem skips_cons (info : OpInfo) (infos : List OpInfo) :
    skips (info :: infos) = info.start + skips infos := rfl

@[simp] theorem skips_append (infos others : List OpInfo) :
    skips (infos ++ others) = skips infos + skips others := by
  induction infos with
  | nil => rw [List.nil_append, skips_nil, Nat.zero_add]
  | cons info infos ih => rw [List.cons_append, skips_cons, skips_cons, ih, Nat.add_assoc]

theorem skips_eq_zero {infos : List OpInfo} : skips infos = 0 ↔ ∀ info ∈ infos, info.start = 0 := by
  induction infos with
  | nil => simp
  | cons info infos ih =>
    rw [skips_cons, List.forall_mem_cons, ← ih]
    omega

end OpInfo

namespace Op

/-- The operations that are not ranges. -/
def withoutRanges (ops : List (Op α)) : List (Op α) := ops.filter fun op => !op.info.isRange

@[simp] theorem withoutRanges_append (ops others : List (Op α)) :
    withoutRanges (ops ++ others) = withoutRanges ops ++ withoutRanges others :=
  List.filter_append ..

theorem withoutRanges_cons_range (start : Nat) (stop : Option Nat) (ops : List (Op α)) :
    withoutRanges (.range start stop :: ops) = withoutRanges ops := rfl

theorem withoutRanges_cons_of_not {op : Op α} (h : op.info.isRange = false) (ops : List (Op α)) :
    withoutRanges (op :: ops) = op :: withoutRanges ops :=
  List.filter_cons_of_pos (by rw [h]; rfl)

theorem total_withoutRanges {ops : List (Op α)} (h : ∀ op ∈ ops, op.Total) :
    ∀ op ∈ withoutRanges ops, op.Total := fun op hop => h op (List.mem_filter.1 hop).1

/-- A filter that keeps nothing leaves nothing of any list. -/
theorem eq_nil_of_never {ops : List (Op α)} (hnever : ∃ op ∈ ops, op.info.isNever = true)
    {xs ys : List α} (h : allOnList ops xs = some ys) : ys = [] := by
  obtain ⟨op, hop, hop'⟩ := hnever
  -- whatever comes to the filter, what is behind it starts from the empty list
  obtain ⟨before, behind, rfl⟩ := List.append_of_mem hop
  rw [allOnList_append, Option.bind_eq_some_iff] at h
  obtain ⟨zs, -, hzs⟩ := h
  cases op with
  | never indexed search =>
    change allOnList behind [] = some ys at hzs
    rw [allOnList_nil, Option.some.injEq] at hzs
    exact hzs.symm
  | _ => exact absurd hop' (by simp [info, OpInfo.isNever])

end Op

end StreamFusion
