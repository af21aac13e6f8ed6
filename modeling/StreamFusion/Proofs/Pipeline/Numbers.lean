import StreamFusion.Pipeline.Building
import StreamFusion.Proofs.Pipeline.Steady

/-!
# New numbers

Numbers are handed out in increasing order and never taken back (`World.steady_serials`). To make a
pipeline is to hand out a number for it, and at most to write notes into the journal; no source is
touched (`Pipeline.Made`).
-/

namespace StreamFusion

variable {α : Type}

/-- No number is taken back. -/
theorem World.steady_serials (bound : Nat) :
    Steady fun w : World α => bound ≤ w.nextSerial where
  record := fun _ _ h => h
  fresh := fun _ h => Nat.le_succ_of_le h
  recipe := fun _ _ _ h => h
  reading := fun _ _ _ h => h

theorem World.upkeep_serials (bound : Nat) :
    Upkeep (fun _ w => bound ≤ World.nextSerial (α := α) w) (fun _ => True) fun _ => True := by
  refine (steady_serials bound).upkeep (fun _ => ?_) fun _ => trivial
  refine (Act.Leads.sourceMemo _).bind fun memo => ?_
  split
  · exact .refuse fun _ h => h
  · exact fun _ h => h

/-! ## Making pipelines -/

namespace Pipeline

/-- A pipeline with a new number was made, notes were written at most, and neither a source nor a
recipe of before was touched. -/
structure Made (w : World α) (q : Pipeline α) (w' : World α) : Prop where
  serial_ge : w.nextSerial ≤ q.recipe.serial
  serial_lt : q.recipe.serial < w'.nextSerial
  sources_eq : w'.sources = w.sources
  recipes_eq : ∀ n < w.nextSerial, w'.recipes n = w.recipes n
  journal_eq : ∃ notes : List Note, w'.journal = w.journal.record (notes.map .noted)

/-- The act always makes a pipeline that reads the same one-shot source as `p`, if any. -/
def Remakes (p : Pipeline α) (act : Act α (Pipeline α)) : Prop :=
  ∀ w, ∃ q w', act w = .ok q w' ∧ Made w q w' ∧ q.source.oneShot? = p.source.oneShot?

theorem derive_remakes (p : Pipeline α) (ops : List (Op α)) (config : Config) :
    p.Remakes (p.derive ops config) :=
  fun w => ⟨⟨p.source, ⟨w.nextSerial, ops, config, p.recipe.width⟩⟩, _, rfl,
    ⟨Nat.le_refl _, Nat.lt_succ_self _, rfl, fun _ _ => rfl, [], rfl⟩, rfl⟩

theorem link_remakes (p : Pipeline α) (through : Link α) (width : Nat) :
    p.Remakes (p.link through width) := by
  intro w
  let base : Recipe α := ⟨w.nextSerial, p.recipe.ops, p.recipe.config, p.recipe.width⟩
  have hbelow : w.nextSerial ≤ w.nextSerial + 1 + 1 := Nat.le_add_right _ 2
  exact ⟨⟨.derived ⟨w.nextSerial + 1, none⟩ through p.source base,
    ⟨w.nextSerial + 1 + 1, [], p.recipe.config, width⟩⟩, _, rfl,
    ⟨hbelow, Nat.lt_succ_self _, rfl, fun _ _ => rfl, [], rfl⟩, rfl⟩

theorem slice_remakes (p : Pipeline α) (start : Int) (stop : Option Int) :
    p.Remakes (p.slice start stop) := by
  unfold slice
  split
  · exact p.derive_remakes _ _
  · exact p.derive_remakes _ _
  · exact p.link_remakes _ _

theorem filterText_remakes (p : Pipeline α) (query : String) (fields : List String)
    (field : α → String → Option String) : p.Remakes (p.filterText query fields field) := by
  unfold filterText
  simp only
  cases (TextQuery.compile query fields).rejected with
  | none => exact p.derive_remakes _ _
  | some reason =>
    intro w
    exact ⟨⟨p.source, ⟨w.nextSerial, _, _, _⟩⟩, _, rfl,
      ⟨Nat.le_refl _, Nat.lt_succ_self _, rfl, fun _ _ => rfl, [.queryRejected query reason], rfl⟩,
      rfl⟩

theorem copy_remakes (p : Pipeline α) : p.Remakes p.copy :=
  fun w => ⟨⟨p.source, ⟨w.nextSerial, p.recipe.ops, p.recipe.config, p.recipe.width⟩⟩, _, rfl,
    ⟨Nat.le_refl _, Nat.lt_succ_self _, rfl, fun _ hn => if_neg (Nat.ne_of_lt hn), [], rfl⟩, rfl⟩

end Pipeline

end StreamFusion
