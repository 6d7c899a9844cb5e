import TargetWakeTime.Proofs.Simulation.Exchange

/-!
Contract: a network in which at most one station is busy, with one of its flows.

Owns:
- the addresses of up to 255 stations and their access point, which all differ;
- calm networks, in which everyone rests and every flow is paired with its slot;
- scenes, in which one station and the access point have an exchange about one flow, and all else is as
  in a calm network;
- that scenes make a plot, so that a network in such a scene comes to rest.

A scene may have a mark on its station, which tells that someone waits behind the confirm that the
station waits for. Then no frame is on its way any more.
-/

namespace TargetWakeTime.Simulation

open Network (accessPointAddress stationAddress)
open Sketch (Heard)

/-- The address of each node. -/
def nodeAddress : Nat → MacAddress
  | 0 => accessPointAddress
  | number + 1 => stationAddress number

/-- The stations that are served. -/
def served (stations : Nat) : List MacAddress := (List.range stations).map stationAddress

theorem nodeAddress_injective {first second : Nat} (firstSmall : first < 256)
    (secondSmall : second < 256) (same : nodeAddress first = nodeAddress second) : first = second := by
  have octet {index : Nat} (small : index < 256) : (nodeAddress index).sixth.toNat = index := by
    cases index with
    | zero => rfl
    | succ number =>
        show (UInt8.ofNat (number % 256 + 1)).toNat = number + 1
        rw [UInt8.toNat_ofNat']
        omega
  rw [← octet firstSmall, ← octet secondSmall, same]

/-- Everyone rests, and every flow is paired with its slot. -/
structure Calm (stations : Nat) (cast : Cast) : Prop where
  access : (cast 0).Waits (served stations)
  rests : ∀ i, i < stations → (cast (i + 1)).Rests i
  paired : ∀ i, i < stations → ∀ flow : UInt8, flow.toNat < 8 →
    (cast (i + 1)).Paired flow ((cast 0).busy? i flow)
  known : ∀ i, i < stations → (cast (i + 1)).negotiation.link = joined →
    (cast 0).negotiation.link.knows (stationAddress i) = true

/-- One station and the access point have an exchange about one flow. -/
structure Scene (stations number : Nat) (flow : UInt8) (marked : Bool) (rank now : Nat) (cast : Cast) :
    Prop where
  exchange : Exchange (served stations) number flow now (cast (number + 1)) (cast 0) rank
  rests : ∀ i, i < stations → i ≠ number → (cast (i + 1)).Rests i
  paired : ∀ i, i < stations → ∀ other : UInt8, other.toNat < 8 → i ≠ number ∨ other ≠ flow →
    (cast (i + 1)).Paired other ((cast 0).busy? i other)
  known : ∀ i, i < stations → (cast (i + 1)).negotiation.link = joined →
    (cast 0).negotiation.link.knows (stationAddress i) = true
  early : marked = true → rank ≤ 3

/-- The nodes that are marked: one station, if any. -/
def marks (number : Nat) (marked : Bool) (index : Nat) : Bool := marked && index == number + 1

variable {stations number rank less now due : Nat} {flow : UInt8} {marked : Bool} {cast after : Cast}
  {y b : Sketch}

theorem Calm.still (calm : Calm stations cast) (index : Nat) (there : index < stations + 1) :
    (cast index).activity = .resting := by
  cases index with
  | zero => exact calm.access.still
  | succ i => exact (calm.rests i (Nat.lt_of_succ_lt_succ there)).still

theorem Calm.scene (calm : Calm stations cast) (here : number < stations) (small : flow.toNat < 8)
    (marked : Bool) (now : Nat) : Scene stations number flow marked 0 now cast where
  exchange := .talks (.rests (calm.rests number here) calm.access (calm.paired number here flow small))
  rests i there _ := calm.rests i there
  paired i there other otherSmall _ := calm.paired i there other otherSmall
  known := calm.known
  early _ := Nat.zero_le 3

theorem Scene.calm (scene : Scene stations number flow marked 0 now cast) (small : flow.toNat < 8) :
    Calm stations cast := by
  obtain ⟨station, access, paired⟩ := scene.exchange.settled small
  refine ⟨access, fun i there => ?_, fun i there other otherSmall => ?_, scene.known⟩
  · by_cases same : i = number
    · exact same ▸ station
    · exact scene.rests i there same
  · by_cases same : i = number
    · by_cases sameFlow : other = flow
      · exact same ▸ sameFlow ▸ paired
      · exact scene.paired i there other otherSmall (.inr sameFlow)
    · exact scene.paired i there other otherSmall (.inl same)

/-! ### Addresses -/

theorem Exchange.addresses {served : List MacAddress} {x a : Sketch}
    (exchange : Exchange served number flow now x a rank) :
    x.address = stationAddress number ∧ a.address = accessPointAddress := by
  have carried {own : Requester} {event : Event} {stage : Nat}
      (carrying : x.Carrying number own event now stage) : x.address = stationAddress number := by
    cases carrying with
    | queued station | begun station | asking station | early station | ripe station
        | answered station | ended station => exact station.address
  cases exchange with
  | talks talking =>
      cases talking with
      | rests station access =>
          obtain ⟨own, link, station, -⟩ := station.exists_own
          exact ⟨station.address, access.address⟩
      | asks station _ _ _ _ access | answered station _ _ access | asked station _ _ _ _ access
          | answers station _ _ _ access => exact ⟨station.station.address, access.address⟩
      | leaves station _ _ _ _ access => exact ⟨station.address, access.address⟩
  | installs carrying _ _ _ access | removes carrying _ _ access | removed carrying _ _ access =>
      exact ⟨carried carrying, access.address⟩

theorem Scene.address (scene : Scene stations number flow marked rank now cast) {index : Nat}
    (there : index < stations + 1) : (cast index).address = nodeAddress index := by
  obtain ⟨station, access⟩ := scene.exchange.addresses
  cases index with
  | zero => exact access
  | succ i =>
      by_cases same : i = number
      · exact same ▸ station
      · obtain ⟨own, link, held, -⟩ := (scene.rests i (Nat.lt_of_succ_lt_succ there) same).exists_own
        exact held.address

/-- No two nodes have one address. -/
theorem Scene.unique (scene : Scene stations number flow marked rank now cast) (few : stations ≤ 64)
    {index other : Nat} (here : index < stations + 1) (there : other < stations + 1)
    (same : (cast index).address = (cast other).address) : index = other := by
  rw [scene.address here, scene.address there] at same
  exact nodeAddress_injective (by omega) (by omega) same

/-! ### What happens next -/

/-- A scene becomes another one if only the exchange is different. -/
theorem Scene.replaced {time : Nat} (scene : Scene stations number flow marked rank now cast)
    (few : stations ≤ 64) (here : number < stations) (early : marked = true → less ≤ 3)
    (exchange : Exchange (served stations) number flow time y b less)
    (elsewhere : (cast (number + 1)).Elsewhere flow y) (spares : (cast 0).Spares number flow b)
    (station : after (number + 1) = y) (access : after 0 = b)
    (others : ∀ i, i < stations → i ≠ number → after (i + 1) = cast (i + 1)) :
    Scene stations number flow marked less time after where
  exchange := station ▸ access ▸ exchange
  rests i there apart := others i there apart ▸ scene.rests i there apart
  paired i there other small apart := by
    have key : (⟨stationAddress i, other⟩ : AgreementKey) ≠ ⟨stationAddress number, flow⟩ := by
      intro same
      obtain ⟨address, sameFlow⟩ := AgreementKey.mk.inj same
      have sameNumber : i + 1 = number + 1 :=
        nodeAddress_injective (by omega) (by omega) address
      exact apart.elim (· (Nat.succ.inj sameNumber)) (· sameFlow)
    have slot : (after 0).busy? i other = (cast 0).busy? i other := access ▸ spares.slots _ key
    have before := scene.paired i there other small apart
    rw [slot]
    by_cases same : i = number
    · subst same
      rw [station]
      exact before.elsewhere elsewhere small (apart.elim (absurd rfl ·) id)
    · rwa [others i there same]
  known i there link := by
    rw [access, spares.link]
    refine scene.known i there ?_
    by_cases same : i = number
    · subst same
      rw [station] at link
      exact elsewhere.link.symm.trans link
    · rwa [others i there same] at link
  early := early

/-- A scene goes on if the exchange does and everything else stays. -/
theorem Scene.goesOn {time : Nat} (scene : Scene stations number flow marked rank now cast)
    (few : stations ≤ 64) (here : number < stations) (below : less ≤ rank)
    (exchange : Exchange (served stations) number flow time y b less)
    (elsewhere : (cast (number + 1)).Elsewhere flow y) (spares : (cast 0).Spares number flow b)
    (station : after (number + 1) = y) (access : after 0 = b)
    (others : ∀ i, i < stations → i ≠ number → after (i + 1) = cast (i + 1)) :
    Scene stations number flow marked less time after :=
  scene.replaced few here (fun isMarked => Nat.le_trans below (scene.early isMarked)) exchange elsewhere
    spares station access others

theorem mem_served (here : number < stations) : stationAddress number ∈ served stations :=
  List.mem_map_of_mem (List.mem_range.mpr here)

/-- Only the station and the access point of the exchange take steps. -/
theorem Scene.silent {i : Nat} {frame : Option ActionFrame}
    (scene : Scene stations number flow marked rank now cast) (there : i < stations)
    (apart : i ≠ number) : (cast (i + 1)).next? due ≠ some (y, frame) := by
  intro next
  rw [Sketch.next?, (scene.rests i there apart).still] at next
  cases next

/-- Every node can take its next step, and a frame finds its receiver at rest. -/
theorem Scene.prepared (scene : Scene stations number flow marked rank now cast)
    (few : stations ≤ 64) (here : number < stations) (small : flow.toNat < 8) (index : Nat)
    (there : index < stations + 1) :
    cast.Prepared (stations + 1) (marks number marked) index := by
  have member := mem_served here
  obtain ⟨stationAble, accessAble⟩ := scene.exchange.able member small (scene.known number here)
  cases index with
  | zero =>
      refine ⟨accessAble, fun due b frame next => ?_⟩
      obtain ⟨y, less, heard, -, -, -, -, late⟩ := scene.exchange.access_next member small next
      cases heard with
      | frame addressed takes =>
          have unmarked : marked = false := by
            rcases late with silence | late
            · cases silence
            · refine Bool.eq_false_iff.mpr fun isMarked => ?_
              have early := scene.early isMarked
              omega
          refine ⟨number + 1, by omega, Nat.succ_ne_zero number, ?_, addressed, ?_, takes⟩
          · rw [marks, unmarked, Bool.false_and]
          · intro third within same
            exact scene.unique few within (by omega) (same.trans addressed.symm)
  | succ i =>
      by_cases same : i = number
      · subst same
        refine ⟨stationAble, fun due y frame next => ?_⟩
        obtain ⟨b, less, heard, -⟩ := scene.exchange.station_next member small next
        cases heard with
        | frame addressed takes =>
            refine ⟨0, by omega, (Nat.succ_ne_zero i).symm, ?_, addressed, ?_, takes⟩
            · rw [marks, show (0 == i + 1) = false from rfl, Bool.and_false]
            · intro third within same
              exact scene.unique few within (by omega) (same.trans addressed.symm)
      · refine ⟨?_, fun due y frame next => absurd next (scene.silent (Nat.lt_of_succ_lt_succ there) same)⟩
        rw [Sketch.Able, (scene.rests i (Nat.lt_of_succ_lt_succ there) same).still]
        trivial

/-- Each step leads to a scene with a lower rank. -/
theorem Scene.stepped (scene : Scene stations number flow marked rank now cast)
    (few : stations ≤ 64) (here : number < stations) (small : flow.toNat < 8) {index : Nat}
    (there : index < stations + 1) (next : cast.Next (stations + 1) index due after) :
    ∃ less, less < rank ∧ Scene stations number flow marked less now after := by
  have member := mem_served here
  cases index with
  | zero =>
      cases next with
      | alone next =>
          obtain ⟨y, less, heard, smaller, exchange, elsewhere, spares, -⟩ :=
            scene.exchange.access_next member small next
          cases heard
          exact ⟨less, smaller, scene.goesOn few here (Nat.le_of_lt smaller) exchange elsewhere spares
            rfl rfl fun _ _ _ => rfl⟩
      | @handed b frame other next within apart addressed =>
          obtain ⟨y, less, heard, smaller, exchange, elsewhere, spares, -⟩ :=
            scene.exchange.access_next member small next
          cases heard with
          | frame hears takes =>
              obtain rfl : other = number + 1 :=
                scene.unique few within (by omega) (addressed.trans hears.symm)
              refine ⟨less, smaller, scene.goesOn few here (Nat.le_of_lt smaller) exchange elsewhere
                spares Cast.set_self rfl fun i _ apart => ?_⟩
              exact Cast.set_of_ne (mt Nat.succ.inj apart)
  | succ i =>
      by_cases same : i = number
      · subst same
        cases next with
        | alone next =>
            obtain ⟨b, less, heard, smaller, exchange, elsewhere, spares⟩ :=
              scene.exchange.station_next member small next
            cases heard
            refine ⟨less, smaller, scene.goesOn few here (Nat.le_of_lt smaller) exchange elsewhere
              spares Cast.set_self rfl fun j _ apart => ?_⟩
            exact Cast.set_of_ne (mt Nat.succ.inj apart)
        | @handed y frame other next within apart addressed =>
            obtain ⟨b, less, heard, smaller, exchange, elsewhere, spares⟩ :=
              scene.exchange.station_next member small next
            cases heard with
            | frame hears takes =>
                obtain rfl : other = 0 := scene.unique few within (by omega) (addressed.trans hears.symm)
                refine ⟨less, smaller, scene.goesOn few here (Nat.le_of_lt smaller) exchange elsewhere
                  spares Cast.set_self rfl fun j _ apart => ?_⟩
                exact Cast.set_of_ne (mt Nat.succ.inj apart)
      · have there := Nat.lt_of_succ_lt_succ there
        cases next with
        | alone next => exact absurd next (scene.silent there same)
        | handed next => exact absurd next (scene.silent there same)

/-- What time brings is for the station of the exchange. -/
theorem Scene.timed (scene : Scene stations number flow marked rank now cast) {index time : Nat}
    (there : index < stations + 1) (waits : (cast index).timer? = some time) :
    index = number + 1 := by
  cases index with
  | zero =>
      rw [scene.exchange.untimed_access] at waits
      cases waits
  | succ i =>
      by_cases same : i = number
      · rw [same]
      · rw [Sketch.timer?, (scene.rests i (Nat.lt_of_succ_lt_succ there) same).still] at waits
        cases waits

theorem Scene.delivered (scene : Scene stations number flow marked rank now cast)
    (few : stations ≤ 64) (here : number < stations) (small : flow.toNat < 8) {index : Nat}
    (there : index < stations + 1) (waits : (cast index).timer? = some due) (arrived : due ≤ now) :
    ∃ less, less < rank ∧
      Scene stations number flow marked less now fun index => (cast index).delivered now := by
  obtain rfl := scene.timed there waits
  obtain ⟨less, below, exchange, elsewhere, strict⟩ := scene.exchange.delivered small
  refine ⟨less, strict due waits arrived, scene.goesOn few here below exchange elsewhere
    (.refl _ _ _) rfl ?_ fun i within apart => ?_⟩
  · exact Sketch.delivered_of_untimed scene.exchange.untimed_access
  · refine Sketch.delivered_of_untimed ?_
    rw [Sketch.timer?, (scene.rests i within apart).still]

theorem Scene.jumped {time : Nat} (scene : Scene stations number flow marked rank now cast)
    {index : Nat} (there : index < stations + 1) (waits : (cast index).timer? = some time)
    (later : now < time) :
    ∃ less, less < rank ∧ Scene stations number flow marked less time cast := by
  obtain rfl := scene.timed there waits
  obtain ⟨less, below, exchange, strict⟩ := scene.exchange.later (Nat.le_of_lt later)
  exact ⟨less, strict waits later, exchange, scene.rests, scene.paired, scene.known,
    fun isMarked => Nat.le_trans below (scene.early isMarked)⟩

/-- Scenes make a plot. -/
theorem plot_scene (few : stations ≤ 64) (here : number < stations) (small : flow.toNat < 8)
    (marked : Bool) :
    Plot (stations + 1) (marks number marked) (Scene stations number flow marked) where
  prepared _ _ _ scene := scene.prepared few here small
  stepped _ _ _ scene _ there _ _ _ next := scene.stepped few here small there next
  delivered _ _ _ scene _ there _ waits arrived := scene.delivered few here small there waits arrived
  jumped _ _ _ scene _ there _ waits later := scene.jumped there waits later

/-- A calm network stays as it is. -/
theorem plot_calm (stations : Nat) :
    Plot (stations + 1) (fun _ => false) fun rank _ cast => rank = 0 ∧ Calm stations cast where
  prepared _ _ cast calm index there := by
    have still := calm.2.still index there
    refine ⟨?_, fun due y frame next => ?_⟩
    · rw [Sketch.Able, still]
      trivial
    · rw [Sketch.next?, still] at next
      cases next
  stepped _ _ cast calm index there _ _ _ next := by
    have still := calm.2.still index there
    cases next with
    | alone next | handed next =>
        rw [Sketch.next?, still] at next
        cases next
  delivered _ _ cast calm index there _ waits _ := by
    rw [Sketch.timer?, calm.2.still index there] at waits
    cases waits
  jumped _ _ cast calm index there _ waits _ := by
    rw [Sketch.timer?, calm.2.still index there] at waits
    cases waits

end TargetWakeTime.Simulation
