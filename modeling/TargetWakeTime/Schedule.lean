import TargetWakeTime.Error
import TargetWakeTime.ServicePeriod

/-!
Contract: which agreements share a wake interval, and when each of them wakes.

Owns:
- groups of agreements, each filed under a wake interval, in ascending order of it, none of them empty;
- first fit: a new period starts where an earlier one of its group ends, in the first gap that is
  long enough; the first member of a group wakes at zero;
- the members' order, which is the order of their offsets behind the first member.

Does not own the agreements: members are keys, and their timing is looked up. A group knows its wake
interval, and it is filed under one; that the two are the same is not built into the data.
-/

namespace TargetWakeTime

namespace Schedule

structure Group where
  interval : UInt64
  entries : List AgreementKey
deriving DecidableEq, Repr

/-- A group, and the interval that it is filed under. -/
structure Folder where
  label : UInt64
  group : Group
deriving DecidableEq, Repr

end Schedule

structure Schedule where
  folders : List Schedule.Folder := []
deriving DecidableEq, Repr

namespace Schedule

def empty : Schedule := {}

/-- All groups, in the order of the intervals that they are filed under. -/
def groups (s : Schedule) : List Group := s.folders.map (·.group)

def group? (interval : UInt64) (s : Schedule) : Option Group :=
  (s.folders.find? (·.label == interval)).map (·.group)

/-- The members of a wake interval, none if there is no such group. -/
def entries (interval : UInt64) (s : Schedule) : List AgreementKey :=
  ((s.group? interval).map (·.entries)).getD []

def contains (key : AgreementKey) (s : Schedule) : Bool :=
  s.groups.any (·.entries.contains key)

def Folder.withEntries (entries : List AgreementKey) (folder : Folder) : Folder :=
  { folder with group := { folder.group with entries } }

@[simp] theorem label_withEntries (entries : List AgreementKey) (folder : Folder) :
    (folder.withEntries entries).label = folder.label := rfl

/-- Takes a key out of the first group that has it; a group that loses its last member goes. -/
def removeFrom (key : AgreementKey) : List Folder → List Folder
  | [] => []
  | folder :: rest =>
      if folder.group.entries.contains key then
        let left := folder.group.entries.filter (· ≠ key)
        if left.isEmpty then rest else folder.withEntries left :: rest
      else folder :: removeFrom key rest

def remove (key : AgreementKey) (s : Schedule) : Schedule := ⟨removeFrom key s.folders⟩

/-- Gives these members to the group that is filed under an interval. If there is none, it is opened in
its place. -/
def putInto (interval : UInt64) (entries : List AgreementKey) : List Folder → List Folder
  | [] => [⟨interval, ⟨interval, entries⟩⟩]
  | first :: rest =>
      if interval = first.label then first.withEntries entries :: rest
      else if interval < first.label then ⟨interval, ⟨interval, entries⟩⟩ :: first :: rest
      else first :: putInto interval entries rest

def put (interval : UInt64) (entries : List AgreementKey) (s : Schedule) : Schedule :=
  ⟨putInto interval entries s.folders⟩

/-- Where a new member goes: behind how many others, and when it wakes. -/
structure Place where
  position : Nat
  wakeTime : UInt64
deriving DecidableEq, Repr

/-- The first gap among the periods of a group that holds a new period. Between two neighbours the
gap ends at the later one, or one interval further on where the order of offsets wraps. Behind the
last period it ends where the first one, at offset `first`, comes round again. -/
def firstFit (interval duration first : UInt64) : List ServicePeriod → Option Place
  | [] => none
  | [last] =>
      let unwrapped := if last.offset < first then last.offset + interval else last.offset
      if first + interval < unwrapped + last.duration + duration then none
      else some ⟨1, last.finish⟩
  | current :: next :: rest =>
      let nextOffset :=
        if next.offset < current.offset then next.offset + interval else next.offset
      let gap := nextOffset.toNat - current.offsetEnd.toNat
      if duration.toNat ≤ gap then some ⟨1, current.finish⟩
      else
        (firstFit interval duration first (next :: rest)).map fun place =>
          { place with position := place.position + 1 }

/-- The timing of all members, unless one of them has none. -/
def resolve (lookup : AgreementKey → Option ServicePeriod) :
    List AgreementKey → Except Error (List ServicePeriod)
  | [] => .ok []
  | key :: rest =>
      match lookup key with
      | none => .error (.invalidParameter (.unresolvedKey key))
      | some period =>
          match resolve lookup rest with
          | .error error => .error error
          | .ok periods => .ok (period :: periods)

/-- The place of a new period among the members of its group. -/
def place (lookup : AgreementKey → Option ServicePeriod) (interval duration : UInt64)
    (members : List AgreementKey) : Except Error Place :=
  match resolve lookup members with
  | .error error => .error error
  | .ok [] => .error .noSlotAvailable
  | .ok (first :: rest) =>
      match firstFit interval duration first.offset (first :: rest) with
      | none => .error .noSlotAvailable
      | some place => .ok place

/-- Gives an agreement its wake time and makes its key a member of the group of its wake interval.
The key leaves the group that had it before, also when no place is found. A demand keeps its wake
time and goes last, unless it is the first member. The agreement comes back as it is afterwards, also
when no place is found. -/
def assign (key : AgreementKey) (a : Agreement) (command : SetupCommand)
    (lookup : AgreementKey → Option ServicePeriod) (s : Schedule) :
    Except Error Unit × Agreement × Schedule :=
  let interval := a.wakeInterval
  let duration := a.wakeDuration.toUInt64
  if interval = 0 then (.error (.invalidParameter .zeroInterval), a, s)
  else if interval < duration then (.error .noSlotAvailable, a, s)
  else
    let s := s.remove key
    let members := s.entries interval
    if members.isEmpty then (.ok (), { a with wakeTime := 0 }, s.put interval [key])
    else if command = .demand then (.ok (), a, s.put interval (members ++ [key]))
    else
      match place lookup interval duration members with
      | .error error => (.error error, a, s)
      | .ok place =>
          (.ok (), { a with wakeTime := place.wakeTime },
            s.put interval
              (members.take place.position ++ key :: members.drop place.position))

/-- Without a place an agreement stays as it is. -/
theorem agreement_of_assign_error {key : AgreementKey} {a left : Agreement} {command : SetupCommand}
    {lookup : AgreementKey → Option ServicePeriod} {s after : Schedule} {error : Error}
    (failed : s.assign key a command lookup = (.error error, left, after)) : left = a := by
  unfold assign at failed
  dsimp only at failed
  split at failed
  · cases failed
    rfl
  · split at failed
    · cases failed
      rfl
    · split at failed
      · cases failed
      · split at failed
        · cases failed
        · split at failed
          · cases failed
            rfl
          · cases failed

/-- Schedules an agreement, and yields it with its wake time if it found a place. -/
def schedule (key : AgreementKey) (a : Agreement) (command : SetupCommand)
    (lookup : AgreementKey → Option ServicePeriod) (s : Schedule) :
    Except Error Agreement × Schedule :=
  let (result, a, s) := s.assign key a command lookup
  (result.map fun () => a, s)

end Schedule

end TargetWakeTime
