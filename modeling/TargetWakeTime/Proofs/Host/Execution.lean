import TargetWakeTime.Host.Chip

/-!
Contract: what a chip does with a command that it receives more than once.

Owns:
- the table after an agreement was installed twice, and what it holds after a removal;
- `executions`, the executions of one command in a row, and what the last one yields;
- `removes`, the only way in which it matters that a command was executed before;
- what a chip that fails nothing does with a frame that it can read.

Nothing here needs the table to be in order, or to name each slot once.
-/

namespace TargetWakeTime.Host.Chip

namespace Table

theorem insert_insert (id : SlotId) (agreement : List UInt8) (t : Table) :
    (t.insert id agreement).insert id agreement = t.insert id agreement := by
  induction t with
  | nil => simp [insert]
  | cons entry rest inductionHypothesis =>
      by_cases same : entry.1 = id
      case pos => simp [insert, same]
      case neg =>
        by_cases before : slotLt id entry.1 = true
        case pos => simp [insert, same, before]
        case neg => simp [insert, same, before, inductionHypothesis]

theorem get?_erase (id : SlotId) (t : Table) : (t.erase id).get? id = none := by
  simp [get?, erase]

end Table

/-- A chip with these agreements installed. -/
def holding (t : Table) (c : Chip) : Chip := { c with installed := t }

/-- Whether a command removes an agreement that the table holds. -/
def removes (t : Table) : Command → Bool
  | .remove vif flow => (t.get? (vif, flow)).isSome
  | .healthCheck | .install .. | .validate .. => false

theorem status_of_removes {t : Table} {command : Command} (removed : removes t command = true) :
    (execute t command).1 = 0 := by
  cases command with
  | healthCheck | install | validate => cases removed
  | remove vif flow =>
      obtain ⟨agreement, found⟩ := Option.isSome_iff_exists.mp removed
      simp [execute, found]

/-- What the next execution of a command yields, when it was executed so many times before. -/
def executions (t : Table) (command : Command) : (before : Nat) → UInt32 × Table
  | 0 => execute t command
  | before + 1 => execute (executions t command before).2 command

/-- A second execution leaves the table alone, and is told apart from the first only by the status
of a removal. -/
theorem execute_again (t : Table) (command : Command) :
    execute (execute t command).2 command =
      (if removes t command = true then statusInvalid else (execute t command).1,
        (execute t command).2) := by
  cases command with
  | healthCheck | validate => simp [execute, removes]
  | install vif flow agreement => simp [execute, removes, Table.insert_insert]
  | remove vif flow =>
      cases found : t.get? (vif, flow) with
      | none => simp [execute, removes, found]
      | some agreement => simp [execute, removes, found, Table.get?_erase]

/-- However often a command was executed before, the table is the same, and so is the status, unless
the command is a removal and there was something to remove at first. -/
theorem executions_eq (t : Table) (command : Command) (before : Nat) :
    executions t command before =
      (if 0 < before ∧ removes t command = true then statusInvalid else (execute t command).1,
        (execute t command).2) := by
  induction before with
  | zero => simp [executions]
  | succ before inductionHypothesis =>
      rw [executions, inductionHypothesis, execute_again]
      simp

/-- What a chip does with a command, unless it is told to fail it. -/
theorem transmit_of_decode {c : Chip} {frame : List UInt8} {header : Header} {command : Command}
    (now : Nat) (read : Command.decode frame = .ok (header, command))
    (obedient : c.failNext = none) :
    c.transmit now frame =
      (.ok (),
        { c with
          received := header.hostId :: c.received
          stats := { c.stats with received := c.stats.received + 1 }
          installed := (execute c.installed command).2 }.answer now header
            (execute c.installed command).1) := by
  simp only [transmit, read, perform, obedient]

end TargetWakeTime.Host.Chip
