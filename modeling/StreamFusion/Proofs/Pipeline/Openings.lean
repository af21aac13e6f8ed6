import StreamFusion.Proofs.Pipeline.Numbers
import StreamFusion.Proofs.Pipeline.Prospects

/-!
# How often one-shot sources are opened

A one-shot source is remembered as spent if and only if it gave its cursor away, which then happened
once (`World.Accounts`). No act spends a source that it does not read (`World.steady_spent`).
-/

namespace StreamFusion

variable {α : Type}

/-- By this event the one-shot source of this number gave its cursor away. -/
def Event.takes (n : Nat) : Event α → Bool
  | .taken cursor => cursor.serial == n
  | _ => false

/-- How often the one-shot source of this number gave its cursor away. -/
def timesTaken (n : Nat) (events : List (Event α)) : Nat := events.countP (Event.takes n)

@[simp] theorem timesTaken_append (n : Nat) (first second : List (Event α)) :
    timesTaken n (first ++ second) = timesTaken n first + timesTaken n second :=
  List.countP_append

theorem timesTaken_singleton (n : Nat) (c : Ident) :
    timesTaken n ([.taken c] : List (Event α)) = (c.serial == n).toNat := by
  unfold timesTaken
  rw [List.countP_singleton]
  show (if (c.serial == n) = true then 1 else 0) = _
  cases c.serial == n <;> rfl

theorem Untaken.timesTaken_eq {events : List (Event α)} (h : Untaken events) (n : Nat) :
    timesTaken n events = 0 := by
  refine List.countP_eq_zero.2 fun event hmem => ?_
  cases event with
  | taken c => exact absurd hmem (h c)
  | _ => exact nofun

namespace World

/-- After these events and those of the journal, the spent sources are those that gave their cursor
away. -/
def Accounts (past : List (Event α)) (w : World α) : Prop :=
  ∀ n, (w.spent n).toNat = timesTaken n (past ++ w.journal.events)

variable {past : List (Event α)}

theorem Accounts.record {w : World α} (h : w.Accounts past) {events : List (Event α)}
    (hevents : Untaken events) :
    Accounts past { w with journal := w.journal.record events } := by
  intro n
  show (w.spent n).toNat = timesTaken n (past ++ (w.journal.record events).events)
  rw [Journal.events_record, ← List.append_assoc, timesTaken_append, ← h n,
    hevents.timesTaken_eq n, Nat.add_zero]

theorem steady_accounts (past : List (Event α)) : Steady (Accounts past) where
  record := fun hevents _ hw => hw.record hevents
  fresh := fun _ hw => hw
  recipe := fun _ _ _ hw => hw
  reading := fun id found w hw n => by
    rw [← hw n]
    exact congrArg Bool.toNat (steady_spent n (w.spent n) |>.reading id found w rfl)

/-- The source is spent and gives its cursor away, unless it was spent before. -/
theorem opening_once_accounts (id : Ident) (answers : List (Option α)) :
    Act.Maintains (Accounts past) (Source.once id answers).opening := by
  intro w hw
  have hmemo : Act.sourceMemo id w = .ok (w.sources id.serial) w := rfl
  rw [Source.opening, Act.bind_ok hmemo]
  by_cases hspent : (w.sources id.serial).isSpent = true
  · rw [if_pos hspent]
    exact hw
  · rw [if_neg hspent]
    intro n
    show (if n = id.serial then { w.sources n with isSpent := true }
        else w.sources n : SourceMemo).isSpent.toNat =
      timesTaken n (past ++ (w.journal.record [.taken id]).events)
    rw [Journal.events_record, ← List.append_assoc, timesTaken_append, ← hw n,
      timesTaken_singleton]
    by_cases hn : n = id.serial
    · have hbefore : w.spent n = false := by
        rw [hn]
        exact Bool.eq_false_iff.2 hspent
      rw [if_pos hn, hbefore, hn, beq_self_eq_true]
      rfl
    · rw [if_neg hn, beq_eq_false_iff_ne.2 (Ne.symm hn)]
      rfl

/-- A source is not spent by what reads no source of this number. -/
theorem opening_once_spent {n : Nat} {b : Bool} {id : Ident} (hid : id.serial ≠ n)
    (answers : List (Option α)) :
    Act.Maintains (fun w => w.spent n = b) (Source.once id answers).opening := by
  refine (Act.Leads.sourceMemo _).bind fun memo => ?_
  split
  · exact .refuse fun _ h => h
  · intro w hw
    show (if n = id.serial then _ else w.sources n : SourceMemo).isSpent = b
    rw [if_neg (Ne.symm hid)]
    exact hw

end World

namespace Pipeline.Made

variable {w w' : World α} {q : Pipeline α}

theorem spent_eq (h : Made w q w') (n : Nat) : w'.spent n = w.spent n :=
  congrArg (fun sources : Nat → SourceMemo => (sources n).isSpent) h.sources_eq

theorem untaken (h : Made w q w') (hempty : w.journal = .empty) : Untaken w'.journal.events := by
  obtain ⟨notes, hjournal⟩ := h.journal_eq
  rw [hjournal, hempty, Journal.events_record]
  intro c hmem
  obtain ⟨note, -, hnote⟩ := List.mem_map.1 hmem
  exact absurd hnote nofun

end Pipeline.Made

end StreamFusion
