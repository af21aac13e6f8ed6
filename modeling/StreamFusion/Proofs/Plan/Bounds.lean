import StreamFusion.Proofs.Plan.Drafts

/-!
# How many elements may come out

The most elements that can come out of operations of which only the descriptions are known. The
bound holds for all callbacks (`Op.allOnList_within`), and unless it is zero there are callbacks and
a source for which something comes out (`OpInfo.exists_generous`). The limit that planning computes
is not always a bound: a flatten may add elements that a later start takes away again.
-/

namespace StreamFusion

variable {α β : Type}

theorem length_keepWhere_le (xs : List α) (kept : List Bool) :
    (keepWhere xs kept).length ≤ xs.length := by
  induction xs generalizing kept with
  | nil => exact Nat.le_refl _
  | cons x xs ih =>
    cases kept with
    | nil => exact Nat.zero_le _
    | cons keep kept =>
      have hrest := ih kept
      rw [keepWhere]
      split <;> simp only [List.length_cons] <;> omega

theorem length_upTo (limit : Option Nat) (xs : List α) :
    (upTo limit xs).length = match limit with
      | none => xs.length
      | some most => min most xs.length := by
  cases limit
  · rfl
  · exact List.length_take

namespace OpInfo

/-- The most elements after an operation, from the most elements before it. -/
def mostAfter (most : Option Nat) : OpInfo → Option Nat
  | .transform _ => most
  | .filter _ never _ => if never then some 0 else most
  | .range start stop => Draft.limitAfter .baseline most start stop
  | .flatten _ => if most = some 0 then some 0 else none

/-- The most elements after all operations. -/
def mostFrom (most : Option Nat) (infos : List OpInfo) : Option Nat := infos.foldl mostAfter most

@[simp] theorem mostFrom_cons (most : Option Nat) (info : OpInfo) (infos : List OpInfo) :
    mostFrom most (info :: infos) = mostFrom (mostAfter most info) infos := rfl

@[simp] theorem mostFrom_concat (most : Option Nat) (infos : List OpInfo) (info : OpInfo) :
    mostFrom most (infos ++ [info]) = mostAfter (mostFrom most infos) info := by
  rw [mostFrom, List.foldl_append]
  rfl

@[simp] theorem mostAfter_zero (info : OpInfo) : mostAfter (some 0) info = some 0 := by
  cases info with
  | transform indexed => rfl
  | filter indexed never search => cases never <;> rfl
  | range start stop => cases stop <;> simp [mostAfter, Draft.limitAfter, Draft.tighter]
  | flatten indexed => rfl

end OpInfo

open OpInfo

/-! ## The bound holds -/

/-- There are no more elements than the bound says, if it says anything. -/
def Within (most : Option Nat) (xs : List α) : Prop := ∀ n, most = some n → xs.length ≤ n

theorem within_none (xs : List α) : Within none xs := nofun

theorem Op.onList_within {op : Op α} {most : Option Nat} {xs ys : List α} (hxs : Within most xs)
    (h : op.onList xs = some ys) : Within (mostAfter most op.info) ys := by
  cases op with
  | transform f =>
    have hlength : ys.length = xs.length := Callback.length_answersFrom h
    intro n hn
    rw [hlength]
    exact hxs n hn
  | filter test search =>
    obtain ⟨kept, -, rfl⟩ := Option.map_eq_some_iff.1 h
    exact fun n hn => Nat.le_trans (length_keepWhere_le xs kept) (hxs n hn)
  | never indexed search =>
    rw [Op.onList, Option.some.injEq] at h
    subst h
    exact fun n _ => Nat.zero_le n
  | range start stop =>
    rw [Op.onList_range, Option.some.injEq] at h
    subst h
    intro n hn
    rw [Window.pass, length_upTo, List.length_drop]
    cases most with
    | none =>
      cases stop with
      | none => exact absurd hn (by simp [Op.info, mostAfter, Draft.limitAfter, Draft.tighter])
      | some stop =>
        simp only [Op.info, mostAfter, Draft.limitAfter, Draft.tighter, Option.map_none,
          Option.map_some, Option.some.injEq] at hn ⊢
        omega
    | some most =>
      have hle := hxs most rfl
      cases stop <;>
        simp only [Op.info, mostAfter, Draft.limitAfter, Draft.tighter, Option.map_none,
          Option.map_some, Option.some.injEq] at hn ⊢ <;> omega
  | flatten expand =>
    intro n hn
    simp only [Op.info, mostAfter] at hn
    split at hn
    · -- nothing came in
      have hnil : xs = [] := List.length_eq_zero_iff.1 (Nat.le_zero.1 (hxs 0 ‹_›))
      rw [hnil, Op.onList_nil, Option.some.injEq] at h
      rw [← h]
      exact Nat.zero_le n
    · exact absurd hn (by simp)

/-- No callbacks bring more elements than the descriptions allow. -/
theorem Op.allOnList_within {ops : List (Op α)} {most : Option Nat} {xs ys : List α}
    (hxs : Within most xs) (h : allOnList ops xs = some ys) :
    Within (mostFrom most (ops.map Op.info)) ys := by
  induction ops generalizing most xs with
  | nil =>
    rw [allOnList, Option.some.injEq] at h
    rw [← h]
    exact hxs
  | cons op ops ih =>
    obtain ⟨zs, hzs, hrest⟩ := Option.bind_eq_some_iff.1 h
    exact ih (op.onList_within hxs hzs) hrest

theorem Op.eq_nil_of_mostFrom {ops : List (Op α)} {most : Option Nat} {xs ys : List α}
    (hxs : Within most xs) (hmost : mostFrom most (ops.map Op.info) = some 0)
    (h : allOnList ops xs = some ys) : ys = [] :=
  List.length_eq_zero_iff.1 (Nat.le_zero.1 (allOnList_within hxs h 0 hmost))

/-! ## The bound is met -/

/-- There are as many elements as needed, or as many as the bound says. -/
def Reaches (most : Option Nat) (needed : Nat) (xs : List α) : Prop :=
  needed ≤ xs.length ∨ ∃ n, most = some n ∧ n ≤ xs.length

theorem ne_nil_of_reaches {most : Option Nat} {xs : List α} (h : Reaches most 1 xs)
    (hmost : most ≠ some 0) : xs ≠ [] := by
  rintro rfl
  rcases h with hone | ⟨n, hn, hle⟩
  · exact absurd hone (by simp)
  · exact hmost (hn.trans (by rw [Nat.le_zero.1 hle]))

/-- An operation that keeps what it can: its callback never fails, its filter keeps everything, and
its expansions have at least so many elements. -/
def Op.Generous (copies : Nat) : Op α → Prop
  | .transform f => f.Total
  | .filter test _ => ∀ x index, test.run x index = some true
  | .never _ _ | .range _ _ => True
  | .flatten expand => ∀ x index, ∃ ys, expand.run x index = some ys ∧ copies ≤ ys.length

theorem Callback.keepWhere_of_true {test : Callback α Bool}
    (h : ∀ x index, test.run x index = some true) (first : Nat) (xs : List α) :
    (test.answersFrom first xs).map (keepWhere xs) = some xs := by
  induction xs generalizing first with
  | nil => rfl
  | cons x xs ih =>
    obtain ⟨kept, hkept, hxs⟩ := Option.map_eq_some_iff.1 (ih (first + 1))
    have hall : test.answersFrom first (x :: xs) = some (true :: kept) :=
      (answersFrom_cons ..).2 ⟨true, kept, h x _, hkept, rfl⟩
    rw [hall, Option.map_some, keepWhere, if_pos rfl, hxs]

/-- What is left after a generous operation is enough if what came to it made up for its start. -/
theorem Op.onList_reaches {op : Op α} {copies needed : Nat} {most : Option Nat} {xs : List α}
    (hop : op.Generous copies) (hcopies : needed ≤ copies)
    (hxs : Reaches most (op.info.start + needed) xs) :
    ∃ ys, op.onList xs = some ys ∧ Reaches (mostAfter most op.info) needed ys := by
  cases op with
  | transform f =>
    obtain ⟨ys, hys⟩ := Callback.Total.answersFrom hop 0 xs
    refine ⟨ys, hys, ?_⟩
    rw [Reaches, Callback.length_answersFrom hys]
    have hstart : (transform f).info.start = 0 := rfl
    rwa [hstart, Nat.zero_add] at hxs
  | filter test search =>
    refine ⟨xs, Callback.keepWhere_of_true hop 0 xs, ?_⟩
    have hstart : (filter test search).info.start = 0 := rfl
    rwa [hstart, Nat.zero_add] at hxs
  | never indexed search => exact ⟨[], rfl, .inr ⟨0, rfl, Nat.le_refl _⟩⟩
  | range start stop =>
    refine ⟨_, onList_range start stop xs, ?_⟩
    simp only [Op.info, OpInfo.start] at hxs
    rw [Reaches, Window.pass, length_upTo, List.length_drop]
    -- enough came in, or as many as the bound says: what the start takes away was allowed for
    rcases hxs with hxs | ⟨n, rfl, hn⟩
    · cases stop with
      | none => exact .inl (by simp only [Option.map_none]; omega)
      | some stop =>
        simp only [Op.info, mostAfter, Draft.limitAfter, Option.map_some]
        cases most <;> simp only [Draft.tighter, Option.map_none, Option.map_some,
          Option.some.injEq, exists_eq_left'] <;> omega
    · cases stop <;>
        simp only [Op.info, mostAfter, Draft.limitAfter, Draft.tighter, Option.map_none,
          Option.map_some, Option.some.injEq, exists_eq_left'] <;> omega
  | flatten expand =>
    obtain ⟨parts, hparts⟩ : ∃ parts, expand.answersFrom 0 xs = some parts :=
      Callback.Total.answersFrom (fun x i => (hop x i).imp fun _ h => h.1) 0 xs
    refine ⟨parts.flatten, by rw [onList, hparts, Option.map_some], ?_⟩
    simp only [Op.info, mostAfter]
    split
    · exact .inr ⟨0, rfl, Nat.zero_le _⟩
    · rename_i hmost
      cases xs with
      | nil =>
        -- the bound would have to be zero
        rcases hxs with hxs | ⟨n, hn, hle⟩
        · exact .inl (Nat.le_trans (Nat.le_add_left ..) (Nat.le_trans hxs (Nat.zero_le _)))
        · exact absurd (hn.trans (by rw [Nat.le_zero.1 hle])) hmost
      | cons x xs =>
        obtain ⟨part, rest, hpart, -, rfl⟩ := (Callback.answersFrom_cons ..).1 hparts
        -- one element is enough, as its expansion alone has all the copies
        have hanswers : ∀ index, ∃ ys, expand.answer x index = some ys ∧ copies ≤ ys.length :=
          fun index => hop x _
        obtain ⟨ys, hys, hle⟩ := hanswers 0
        have hsame : ys = part := Option.some.inj (hys.symm.trans hpart)
        left
        rw [List.flatten_cons, List.length_append, ← hsame]
        omega

theorem Op.allOnList_reaches {ops : List (Op α)} {copies needed : Nat} {most : Option Nat}
    {xs : List α} (hops : ∀ op ∈ ops, op.Generous copies)
    (hcopies : skips (ops.map Op.info) + needed ≤ copies)
    (hxs : Reaches most (skips (ops.map Op.info) + needed) xs) :
    ∃ ys, allOnList ops xs = some ys ∧ Reaches (mostFrom most (ops.map Op.info)) needed ys := by
  induction ops generalizing most xs with
  | nil =>
    refine ⟨xs, rfl, ?_⟩
    rwa [List.map_nil, skips_nil, Nat.zero_add] at hxs
  | cons op ops ih =>
    rw [List.map_cons, skips_cons] at hcopies hxs
    rw [Nat.add_assoc] at hxs
    obtain ⟨zs, hzs, hreach⟩ := op.onList_reaches (hops op List.mem_cons_self) (by omega) hxs
    obtain ⟨ys, hys, hlast⟩ :=
      ih (fun later hlater => hops later (List.mem_cons_of_mem _ hlater)) (by omega) hreach
    exact ⟨ys, by rw [allOnList, hzs]; exact hys, hlast⟩

theorem Op.generous_of_total {op : Op α} (h : op.Total) (hop : op.info.construct? = none)
    (copies : Nat) : op.Generous copies := by
  cases op with
  | transform f => exact h
  | range start stop => trivial
  | _ => exact absurd hop (by simp [Op.info, construct?])

/-- A generous operation of a given description. -/
def Op.ofInfo (copies : Nat) : OpInfo → Op α
  | .transform indexed => .transform ⟨none, indexed, fun x _ => some x⟩
  | .filter indexed true search => .never indexed search
  | .filter indexed false search => .filter ⟨none, indexed, fun _ _ => some true⟩ search
  | .range start stop => .range start stop
  | .flatten indexed => .flatten ⟨none, indexed, fun x _ => some (List.replicate copies x)⟩

theorem Op.info_comp_ofInfo (copies : Nat) : Op.info ∘ (ofInfo copies : OpInfo → Op α) = id := by
  funext info
  rcases info with _ | ⟨_, _ | _, _⟩ | _ | _ <;> rfl

theorem Op.generous_ofInfo (copies : Nat) (info : OpInfo) :
    (ofInfo copies info : Op α).Generous copies := by
  rcases info with _ | ⟨_, _ | _, _⟩ | _ | _
  · exact fun x _ => ⟨x, rfl⟩
  · exact fun _ _ => rfl
  · trivial
  · trivial
  · exact fun x _ => ⟨_, rfl, Nat.le_of_eq List.length_replicate.symm⟩

theorem Op.exists_generous_of_infos (copies : Nat) (infos : List OpInfo) :
    ∃ ops : List (Op α), ops.map Op.info = infos ∧ ∀ op ∈ ops, op.Generous copies := by
  refine ⟨infos.map (ofInfo copies), ?_, fun op hop => ?_⟩
  · rw [List.map_map, Op.info_comp_ofInfo, List.map_id]
  · obtain ⟨info, -, rfl⟩ := List.mem_map.1 hop
    exact generous_ofInfo copies info

/-- Unless the bound is zero, some callbacks bring something out of some source. -/
theorem OpInfo.exists_generous [Nonempty α] {size : Nat} {infos : List OpInfo}
    (h : mostFrom (some size) infos ≠ some 0) :
    ∃ (ops : List (Op α)) (xs ys : List α), ops.map Op.info = infos ∧ xs.length ≤ size
      ∧ Op.allOnList ops xs = some ys ∧ ys ≠ [] := by
  obtain ⟨x⟩ := ‹Nonempty α›
  obtain ⟨ops, hinfos, hops⟩ := Op.exists_generous_of_infos (α := α) (skips infos + 1) infos
  have hsource : Reaches (some size) (skips (ops.map Op.info) + 1) (List.replicate size x) :=
    .inr ⟨size, rfl, Nat.le_of_eq List.length_replicate.symm⟩
  obtain ⟨ys, hys, hreach⟩ := Op.allOnList_reaches hops (Nat.le_of_eq (by rw [hinfos])) hsource
  rw [hinfos] at hreach
  exact ⟨ops, List.replicate size x, ys, hinfos, Nat.le_of_eq List.length_replicate, hys,
    ne_nil_of_reaches hreach h⟩

end StreamFusion
