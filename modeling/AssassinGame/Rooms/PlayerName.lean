import AssassinGame.Rooms.Entrants
import AssassinGame.Rooms.Phones

/-! # Reading a player's name back

`addPlayer` files the player's name under the phone, where a later registration of the
phone replaces it. `getPlayerName` looks the entry up and returns its variable, which the
handler of the lookup assigns only afterwards.
-/

namespace AssassinGame

open AssassinGame.Action Transition World

/-! ## Calls of `getPlayerName` -/

/-- A call that has started its lookup. -/
structure NameCall where
  playerToId : ResourcePath
  /-- The variable that the handler captures. -/
  name : String
  returned : Option String
  answered : Bool
  deriving DecidableEq

namespace NameCall

def return? (call : NameCall) : Option NameCall :=
  if call.returned = none then some { call with returned := some call.name } else none

/-- The handler runs, which has to wait for the return. A handler that traps assigns
nothing. -/
def handle? (response : Option Document) (call : NameCall) : Option NameCall :=
  if call.returned ≠ none ∧ call.answered = false then
    let assigned := (getPlayerName.completion call.name response).result
    some { call with name := assigned.getD call.name, answered := true }
  else none

/-- Until the call returns its variable is empty, and so is what it returns. -/
structure Early (call : NameCall) : Prop where
  before : call.returned = none → call.name = ""
  after : ∀ value ∈ call.returned, value = ""

theorem Early.return? {call next : NameCall} (early : call.Early)
    (returns : call.return? = some next) : next.Early := by
  rw [NameCall.return?, Option.ite_none_right_eq_some] at returns
  rcases returns with ⟨running, same⟩
  cases same
  exact ⟨nofun, fun value same => by rw [← Option.some.inj same, early.before running]⟩

theorem Early.handle? {call next : NameCall} {response : Option Document} (early : call.Early)
    (handled : call.handle? response = some next) : next.Early := by
  rw [NameCall.handle?, Option.ite_none_right_eq_some] at handled
  rcases handled with ⟨⟨returned, _⟩, same⟩
  cases same
  exact ⟨fun none' => absurd none' returned, early.after⟩

end NameCall

/-- The stores, and the calls of `getPlayerName` so far, the earliest first. -/
structure Callers where
  world : World
  calls : List NameCall

namespace Callers

inductive Event
  | world (event : AssassinGame.Event)
  | called (deviceID : Option UUID) (roomNumber : Int)
  /-- The call at this place returns. -/
  | returned (place : Nat)
  /-- The lookup of the call at this place is answered. -/
  | answered (place : Nat)
  /-- It ends in an error instead. -/
  | failed (place : Nat)

def revise (callers : Callers) (place : Nat) (change : NameCall → Option NameCall) :
    Option Callers := do
  let call ← callers.calls[place]?
  let revised ← change call
  return { callers with calls := callers.calls.set place revised }

def step (callers : Callers) : Event → Option Callers
  | .world event => (callers.world.step event).map fun world => { callers with world := world }
  | .called deviceID roomNumber =>
      match (getPlayerName deviceID roomNumber).result with
      | some (name, playerToId) =>
          some { callers with calls := callers.calls ++ [⟨playerToId, name, none, false⟩] }
      | none => some callers
  | .returned place => callers.revise place NameCall.return?
  | .answered place => callers.revise place fun call =>
      call.handle? (callers.world.firestore.lookup call.playerToId)
  | .failed place => callers.revise place (NameCall.handle? none)

def Early (callers : Callers) : Prop := ∀ call ∈ callers.calls, call.Early

theorem Early.revise {callers next : Callers} {place : Nat}
    {change : NameCall → Option NameCall} (early : callers.Early)
    (keeps : ∀ {call revised}, call.Early → change call = some revised → revised.Early)
    (revises : callers.revise place change = some next) : next.Early := by
  rcases Option.bind_eq_some_iff.mp revises with ⟨call, found, rest⟩
  rcases Option.bind_eq_some_iff.mp rest with ⟨revised, changed, same⟩
  cases same
  intro other member
  rcases List.mem_or_eq_of_mem_set member with old | rfl
  · exact early other old
  · exact keeps (early call (List.mem_of_getElem? found)) changed

theorem Early.step {callers next : Callers} {event : Event} (early : callers.Early)
    (stepped : callers.step event = some next) : next.Early := by
  cases event with
  | world event =>
      rcases Option.map_eq_some_iff.mp stepped with ⟨world, _, rfl⟩
      exact early
  | called deviceID roomNumber =>
      cases deviceID with
      | none =>
          have trapped : (getPlayerName none roomNumber).result = none := by
            simp [getPlayerName, bind_result]
          rw [Callers.step, trapped] at stepped
          cases stepped
          exact early
      | some device =>
          rw [Callers.step, getPlayerName_result] at stepped
          cases stepped
          intro call member
          rcases List.mem_append.mp member with old | new
          · exact early call old
          · rw [List.mem_singleton.mp new]
            exact ⟨fun _ => rfl, fun value none' => absurd none' (Option.not_mem_none value)⟩
  | returned place => exact early.revise NameCall.Early.return? stepped
  | answered place => exact early.revise NameCall.Early.handle? stepped
  | failed place => exact early.revise NameCall.Early.handle? stepped

theorem Early.run {callers final : Callers} {events : List Event} (early : callers.Early)
    (performed : Transition.run Callers.step callers events = some final) : final.Early :=
  run_keeps Early (fun early stepped => early.step stepped) early performed

end Callers

/-! ## What is filed under a phone -/

/-- The name under which the operation registers the phone in the room, running to its
end. -/
def Operation.nameFor (device : UUID) (room : Int) (operation : Operation) : Option String :=
  operation.registration.bind fun registration =>
    if registration.1 = some device then operation.entrant room else none

/-- The name under which the phone has registered in the room most recently. -/
def World.lastName? (device : UUID) (room : Int) (world : World) : Option String :=
  world.calls.findSome? fun call => call.2.nameFor device room

/-- The event calls `addPlayer` while nothing is under way, and the call can run to its end,
or it continues a call. -/
def Registers (world : World) : AssassinGame.Event → Prop
  | .call _ (.addPlayer deviceID roomNumber player) =>
      world.outstanding = [] ∧ Registrable deviceID roomNumber player
  | .call _ _ => False
  | .perform _ _ => True

instance (world : World) : ∀ event, Decidable (Registers world event)
  | .call _ (.addPlayer deviceID roomNumber player) => inferInstanceAs (Decidable (
      world.outstanding = [] ∧ Registrable deviceID roomNumber player))
  | .call _ (.removePlayer _ _) | .call _ (.addGame _) | .call _ (.addKillshot _ _ _ _ _)
  | .call _ (.uploadKillshotPic _ _) | .call _ (.uploadKillshotName _ _)
  | .call _ (.imagePickerController _ _) | .call _ (.createRoom _ _ _ _) =>
      inferInstanceAs (Decidable False)
  | .perform _ _ => inferInstanceAs (Decidable True)

theorem name_ne_empty_of_lastName {world : World} {device : UUID} {room : Int} {name : String}
    (registered : world.lastName? device room = some name) : name ≠ "" := by
  rcases List.exists_of_findSome?_eq_some registered with ⟨call, _, named⟩
  rcases Option.bind_eq_some_iff.mp named with ⟨registration, _, given⟩
  rw [Option.ite_none_right_eq_some] at given
  rcases entrant_eq_some.mp given.2 with ⟨deviceID, player, _, _, registrable, rfl⟩
  exact name_ne_empty registrable.1

section Filing

variable {world next : World} {room : Int} {player : Player} {deviceID : Option UUID}

theorem nameFor_addPlayer (registrable : Registrable deviceID room player) (device : UUID)
    (other : Int) : (Operation.addPlayer deviceID room player).nameFor device other =
      if deviceID = some device ∧ room = other then some player.name else none := by
  by_cases own : deviceID = some device <;> by_cases here : room = other <;>
    simp_all [Operation.nameFor, Operation.entrant, Operation.registration, Operation.room]

theorem lookup_phone_outcome (idle : world.outstanding = [])
    (named : (document? (players room) player.name).isSome) (device : UUID) (other : Int)
    (call : CallId) :
    (world.issue call (.addPlayer deviceID room player)).outcome.lookup
        (phoneToPlayers other ++ [device.uuidString]) =
      if deviceID = some device ∧ room = other then some (phoneFields player)
      else world.firestore.lookup (phoneToPlayers other ++ [device.uuidString]) := by
  rcases Option.isSome_iff_exists.mp named with ⟨playerRef, named⟩
  have registered := registered_addPlayer idle named deviceID call
  by_cases own : room = other
  · subst own
    rw [lookup_phone_of_registered named registered]
    have same : deviceID.map UUID.uuidString = some device.uuidString ↔
        deviceID = some device :=
      (Option.map_injective UUID.uuidString_injective).eq_iff (b := some device)
    simp only [same, and_true]
  · rw [registered _ (gameRef_ne_phone room other device.uuidString).symm,
      if_neg fun both => own both.2, lookup_applyAll_of_ne]
    intro write member same
    rcases List.mem_map.mp member with ⟨entry, inside, rfl⟩
    rcases List.mem_cons.mp inside with rfl | phone
    · exact own (subcollection_unique ((document?_eq_some named).symm.trans same)).1
    · rcases List.mem_map.mp phone with ⟨identified, _, rfl⟩
      exact own (subcollection_unique same).1

/-- While phones register one after the other, the entry of each that the call under way will
leave holds the name it has registered under most recently. -/
structure Filed (world : World) : Prop where
  solo : world.Solo
  names : ∀ {device room name}, world.lastName? device room = some name →
    (world.outcome.lookup (phoneToPlayers room ++ [device.uuidString])).bind
      (·.string? "name") = some name

theorem Filed.step (filed : Filed world) {event : AssassinGame.Event}
    (registers : Registers world event) (stepped : world.step event = some next) :
    Filed next := by
  have orderly := filed.solo.orderly.step stepped
  rcases step_cases stepped with
    ⟨call, operation, rfl, _, rfl⟩ | ⟨pending, killerTarget, rfl, ready, rfl⟩
  · cases operation with
    | addPlayer deviceID roomNumber player =>
        rcases registers with ⟨idle, registrable⟩
        refine ⟨Solo.issue idle (Operation.addPlayer_changes _ _ _) orderly, ?_⟩
        intro device room name last
        rw [lookup_phone_outcome idle registrable.1]
        rw [World.lastName?, World.issue, List.findSome?_cons,
          nameFor_addPlayer registrable] at last
        by_cases own : deviceID = some device ∧ roomNumber = room
        · rw [if_pos own] at last ⊢
          rw [Option.bind_some, ← last]
          exact Document.string?_fields_head ..
        · rw [if_neg own] at last ⊢
          rw [← outcome_of_idle idle]
          exact filed.names last
    | addGame | removePlayer | addKillshot | uploadKillshotPic | uploadKillshotName
    | imagePickerController | createRoom => exact registers.elim
  · refine ⟨filed.solo.perform ready orderly, fun last => ?_⟩
    rw [filed.solo.outcome_perform ready killerTarget]
    exact filed.names last

end Filing

theorem Filed.run {firestore : Firestore} {storage : Storage}
    {events : List AssassinGame.Event} {final : World}
    (registers : Meets World.step Registers (World.start firestore storage) events)
    (performed : Transition.run World.step (World.start firestore storage) events =
      some final) : Filed final :=
  run_invariant Filed (fun _ _ _ filed registers stepped => filed.step registers stepped)
    ⟨Solo.of_idle (Orderly.start firestore storage) rfl, nofun⟩ registers performed

/-! ## What is returned -/

/-- Phones register one after the other, each as often as its owner likes. In no way in which
things can go on from there does `getPlayerName` on a phone that has registered return the
name of its last registration. It returns the empty text, and the handler then leaves the name in
the variable. -/
theorem getPlayerName_returns_too_early {firestore : Firestore} {storage : Storage}
    {history : List AssassinGame.Event} {reached : World} {device : UUID} {room : Int}
    {name : String}
    (performed : run World.step (World.start firestore storage) history = some reached)
    (registers : Meets World.step Registers (World.start firestore storage) history)
    (done : reached.outstanding = [])
    (registered : reached.lastName? device room = some name) :
    (∀ events final, run Callers.step ⟨reached, []⟩ (.called (some device) room :: events) =
      some final → ∀ call ∈ final.calls[0]?, call.returned ≠ some name) ∧
    run Callers.step ⟨reached, []⟩ [.called (some device) room, .returned 0, .answered 0] =
      some ⟨reached, [⟨phoneToPlayers room ++ [device.uuidString], name, some "", true⟩]⟩ := by
  constructor
  · intro events final goesOn call made returned
    have start : Callers.Early ⟨reached, []⟩ := nofun
    have early := start.run goesOn call (List.mem_of_getElem? made)
    exact name_ne_empty_of_lastName registered (early.after name returned)
  · have filed := (Filed.run registers performed).names registered
    rw [outcome_of_idle done] at filed
    rcases Option.bind_eq_some_iff.mp filed with ⟨entry, found, names⟩
    simp [run, Callers.step, getPlayerName_result, Callers.revise, NameCall.return?,
      NameCall.handle?, getPlayerName.completion, found, names]

def registersTwice : List AssassinGame.Event :=
  (World.start ∅ ∅).follow [
    .call 0 (join 7 "ann"), .answer 0, .answer 0, .answer 0, .answer 0,
    .call 1 (join 7 "bob"), .answer 0, .answer 0, .answer 0, .answer 0]

theorem getPlayerName_returns_too_early_twice :
    ∃ reached, run World.step (World.start ∅ ∅) registersTwice = some reached ∧
      run Callers.step ⟨reached, []⟩ [.called (some somePhone) 7, .returned 0, .answered 0] =
        some ⟨reached, [⟨phoneToPlayers 7 ++ ["E621E1F8"], "bob", some "", true⟩]⟩ := by
  have ends : (run World.step (World.start ∅ ∅) registersTwice).any (fun reached =>
      reached.outstanding = [] ∧ reached.lastName? somePhone 7 = some "bob") = true := by decide
  rcases run_ends ends with ⟨reached, performed, done, registered⟩
  exact ⟨reached, performed,
    (getPlayerName_returns_too_early performed (by decide) done registered).2⟩

/-- The name of the phone's last registration is not what the call returns. -/
theorem getPlayerName_misses_registration :
    ∃ reached, run World.step (World.start ∅ ∅) registersTwice = some reached ∧
      Meets World.step Registers (World.start ∅ ∅) registersTwice ∧
      reached.outstanding = [] ∧ reached.lastName? somePhone 7 = some "bob" ∧
      ∃ final, run Callers.step ⟨reached, []⟩ [.called (some somePhone) 7, .returned 0] =
        some final ∧ (final.calls[0]?.bind NameCall.returned) = some "" := by
  have ends : (run World.step (World.start ∅ ∅) registersTwice).any (fun reached =>
      reached.outstanding = [] ∧ reached.lastName? somePhone 7 = some "bob" ∧
      (run Callers.step ⟨reached, []⟩ [.called (some somePhone) 7, .returned 0]).any (fun final =>
        final.calls[0]?.bind NameCall.returned = some "") = true) = true := by decide
  rcases run_ends ends with ⟨reached, performed, done, registered, returns⟩
  exact ⟨reached, performed, by decide, done, registered, run_ends returns⟩

end AssassinGame
