import TargetWakeTime.Association
import TargetWakeTime.Proofs.Runs
import Mathlib.Tactic.Tauto

/-!
Contract: which peers a link knows, and on what account.

Owns:
- the actions on a link and runs of them, each link with all that was done to it;
- the law of known peers: the access point of the moment, unless it was removed since the link was
  associated to it, and whoever was added as a peer and not removed since;
- the exact condition for the law, over all runs.

A link keeps one list for peers of both kinds. So the law is lost where an association replaces another
one, whose access point stays, and where a disassociation takes away an access point that was added as a
peer as well.
-/

namespace TargetWakeTime.Association

variable {link : Association} {address other bssid : MacAddress}

/-! ### Known peers -/

theorem knows_addPeer :
    (link.addPeer address).knows other = true ↔ other = address ∨ link.knows other = true := by
  unfold addPeer knows
  simp only [List.contains_iff_mem]
  split
  case isTrue present =>
    refine ⟨.inr, fun known => known.elim (fun same => ?_) id⟩
    rwa [same]
  case isFalse => simp [or_comm]

theorem knows_removePeer :
    (link.removePeer address).knows other = true ↔ link.knows other = true ∧ other ≠ address := by
  simp [removePeer, knows]

theorem bssid_addPeer : (link.addPeer address).bssid = link.bssid := by
  unfold addPeer
  split <;> rfl

theorem bssid_associate : (link.associate bssid).bssid = some bssid := bssid_addPeer

theorem knows_associate :
    (link.associate bssid).knows other = true ↔ other = bssid ∨ link.knows other = true :=
  knows_addPeer

theorem bssid_disassociate : link.disassociate.bssid = none := by
  unfold disassociate
  cases link.bssid <;> rfl

theorem knows_disassociate : link.disassociate.knows other = true ↔
    link.knows other = true ∧ link.bssid ≠ some other := by
  unfold disassociate
  cases link.bssid with
  | none => simp [knows]
  | some bssid =>
      refine knows_removePeer.trans (and_congr_right fun _ => ?_)
      simp [eq_comm]

/-! ### Runs -/

inductive Action where
  | associate (bssid : MacAddress)
  | disassociate
  | addPeer (address : MacAddress)
  | removePeer (address : MacAddress)
deriving DecidableEq, Repr

def apply (link : Association) : Action → Association
  | .associate bssid => link.associate bssid
  | .disassociate => link.disassociate
  | .addPeer address => link.addPeer address
  | .removePeer address => link.removePeer address

/-- Something was done, and not undone since. -/
def Stands (done undone : Action) (history : List Action) : Prop :=
  ∃ before since, history = before ++ done :: since ∧ undone ∉ since

/-- The address was added as a peer and not removed since. -/
def Added (address : MacAddress) : List Action → Prop :=
  Stands (.addPeer address) (.removePeer address)

/-- The link was associated to the address, which was not removed since. -/
def Joined (address : MacAddress) : List Action → Prop :=
  Stands (.associate address) (.removePeer address)

variable {done undone action : Action} {history : List Action}

theorem not_stands_nil : ¬Stands done undone [] := by
  rintro ⟨before, since, split, -⟩
  simp at split

theorem mem_of_stands (stands : Stands done undone history) : done ∈ history := by
  obtain ⟨before, since, rfl, -⟩ := stands
  exact List.mem_append_right _ List.mem_cons_self

theorem stands_concat : Stands done undone (history ++ [action]) ↔
    action = done ∨ Stands done undone history ∧ undone ≠ action := by
  constructor
  · rintro ⟨before, since, split, kept⟩
    rcases List.eq_nil_or_concat since with rfl | ⟨since, last, rfl⟩
    · exact .inl (List.cons.inj (List.append_inj' split rfl).2).1
    · rw [List.concat_eq_append] at split kept
      rw [← List.cons_append, ← List.append_assoc] at split
      obtain ⟨rfl, ends⟩ := List.append_inj' split rfl
      obtain rfl := (List.cons.inj ends).1
      rw [List.mem_append, List.mem_singleton, not_or] at kept
      exact .inr ⟨⟨before, since, rfl, kept.1⟩, kept.2⟩
  · rintro (rfl | ⟨⟨before, since, rfl, kept⟩, apart⟩)
    · exact ⟨history, [], rfl, List.not_mem_nil⟩
    · refine ⟨before, since ++ [action], by simp, ?_⟩
      simp [kept, apart]

theorem added_concat : Added address (history ++ [action]) ↔
    action = .addPeer address ∨ Added address history ∧ action ≠ .removePeer address :=
  stands_concat.trans (or_congr_right (and_congr_right fun _ => ne_comm))

theorem joined_concat : Joined address (history ++ [action]) ↔
    action = .associate address ∨ Joined address history ∧ action ≠ .removePeer address :=
  stands_concat.trans (or_congr_right (and_congr_right fun _ => ne_comm))

/-- A link, with all that was done to it. -/
structure Traced where
  history : List Action := []
  link : Association := {}
deriving DecidableEq, Repr

namespace Traced

def act (t : Traced) (action : Action) : Traced := ⟨t.history ++ [action], t.link.apply action⟩

/-- The link knows its access point, unless that was removed since the link was associated to it, and
whoever was added as a peer and not removed since, and no one else. -/
def Follows (t : Traced) : Prop :=
  ∀ address, t.link.knows address = true ↔
    t.link.bssid = some address ∧ Joined address t.history ∨ Added address t.history

/-- An action heeds on what account peers are known: an association replaces no other access point that
is known as such only, and a disassociation leaves none that was added as a peer. -/
def Heeds (t : Traced) : Action → Prop
  | .associate bssid => ∀ former, t.link.bssid = some former → former ≠ bssid →
      t.link.knows former = true → Added former t.history
  | .disassociate => ∀ former, t.link.bssid = some former → ¬Added former t.history
  | .addPeer _ | .removePeer _ => True

variable {t : Traced}

theorem follows_start : ({} : Traced).Follows := by
  intro address
  have never : ¬Added address [] := not_stands_nil
  simp [knows, never]

theorem follows_associate_iff (follows : t.Follows) :
    (t.act (.associate bssid)).Follows ↔ t.Heeds (.associate bssid) := by
  have law (other : MacAddress) :
      (some bssid = some other ∧ Joined other (t.history ++ [.associate bssid]) ∨
        Added other (t.history ++ [.associate bssid])) ↔ other = bssid ∨ Added other t.history := by
    simp only [joined_concat, added_concat, Option.some.injEq, Action.associate.injEq, reduceCtorEq,
      not_false_eq_true, ne_eq, and_true, false_or, eq_comm]
    tauto
  have after : (t.act (.associate bssid)).Follows ↔
      ∀ other, other = bssid ∨ t.link.knows other = true ↔ other = bssid ∨ Added other t.history := by
    refine forall_congr' fun other => iff_congr knows_associate ?_
    show ((t.link.associate bssid).bssid = some other ∧ _ ∨ _) ↔ _
    rw [bssid_associate]
    exact law other
  rw [after]
  constructor
  · intro holds former _ apart known
    exact ((holds former).mp (.inr known)).resolve_left apart
  · intro heeds other
    refine or_congr_right' fun apart => ⟨fun known => ?_, fun added => (follows other).mpr (.inr added)⟩
    rcases (follows other).mp known with ⟨former, -⟩ | added
    · exact heeds other former apart known
    · exact added

theorem follows_disassociate_iff (follows : t.Follows) :
    (t.act .disassociate).Follows ↔ t.Heeds .disassociate := by
  have after : (t.act .disassociate).Follows ↔
      ∀ other, t.link.knows other = true ∧ t.link.bssid ≠ some other ↔ Added other t.history := by
    refine forall_congr' fun other => iff_congr knows_disassociate ?_
    show (t.link.disassociate.bssid = some other ∧ _ ∨ Added other (t.history ++ [_])) ↔ _
    rw [bssid_disassociate, added_concat]
    simp
  rw [after]
  constructor
  · intro holds former leaves added
    exact ((holds former).mpr added).2 leaves
  · intro heeds other
    constructor
    · rintro ⟨known, apart⟩
      exact ((follows other).mp known).resolve_left fun standing => apart standing.1
    · intro added
      exact ⟨(follows other).mpr (.inr added), fun leaves => heeds other leaves added⟩

theorem follows_addPeer (follows : t.Follows) : (t.act (.addPeer address)).Follows := by
  intro other
  have before := follows other
  show (t.link.addPeer address).knows other = true ↔ (t.link.addPeer address).bssid = some other ∧
    Joined other (t.history ++ [_]) ∨ Added other (t.history ++ [_])
  rw [knows_addPeer, bssid_addPeer, joined_concat, added_concat, before]
  simp only [Action.addPeer.injEq, reduceCtorEq, false_or, ne_eq, not_false_eq_true, and_true,
    eq_comm]
  tauto

theorem follows_removePeer (follows : t.Follows) : (t.act (.removePeer address)).Follows := by
  intro other
  have before := follows other
  show (t.link.removePeer address).knows other = true ↔ t.link.bssid = some other ∧
    Joined other (t.history ++ [_]) ∨ Added other (t.history ++ [_])
  rw [knows_removePeer, joined_concat, added_concat, before]
  simp only [Action.removePeer.injEq, reduceCtorEq, false_or, ne_eq, eq_comm]
  tauto

/-- An action keeps the law exactly if it heeds on what account peers are known. -/
theorem follows_act_iff (follows : t.Follows) (action : Action) :
    (t.act action).Follows ↔ t.Heeds action := by
  cases action with
  | associate bssid => exact follows_associate_iff follows
  | disassociate => exact follows_disassociate_iff follows
  | addPeer address => exact iff_of_true (follows_addPeer follows) trivial
  | removePeer address => exact iff_of_true (follows_removePeer follows) trivial

/-- All along a run the link knows whom it should know, exactly if no association of the run replaces
another access point that is known as such only, and no disassociation leaves an access point that was
added as a peer. -/
theorem follows_iff_heeds (actions : List Action) :
    (∀ t ∈ Runs.reached act {} actions, t.Follows) ↔
      ∀ step ∈ Runs.steps act {} actions, step.1.Heeds step.2 :=
  Runs.reached_iff_steps Follows (fun _ follows => follows)
    (fun _ action follows => (follows_act_iff follows action).mpr)
    (fun _ action follows => (follows_act_iff follows action).mp) follows_start

/-- An access point stays known after the link was associated to another one. -/
theorem not_follows_reassociated :
    let first : MacAddress := ⟨2, 0, 0, 0, 0, 0xa0⟩
    let second : MacAddress := ⟨2, 0, 0, 0, 0, 0xa1⟩
    ¬([.associate first, .associate second].foldl act {}).Follows := by
  intro first second follows
  have stays : (([.associate first, .associate second].foldl act {}).link.knows first) = true := by
    decide
  rcases (follows first).mp stays with ⟨current, -⟩ | added
  · exact absurd current (by decide)
  · exact absurd (mem_of_stands added) (by decide)

end Traced

end TargetWakeTime.Association
