import AssassinGame.Targets.Opponents

/-! # The fields of the documents among the games

Game documents and killshot documents lie in one collection. The identifier of a
killshot document is never a number, so whatever is read under a number, or listened to
under a text that was accepted as one, is missing or a game document with both counts.
-/

namespace AssassinGame

open AssassinGame.Action Transition World Segments

/-! ## Forced casts -/

def Completion.field : Completion → String
  | .addPlayer _ | .removePlayer _ => "playerCount"
  | .addKillshot _ _ => "totalPlayers"

namespace App

/-- What the screens do, and calls made by other means. -/
inductive Activity
  | screen (event : Event)
  | call (id : CallId) (operation : Operation)

def act [Canonical] (app : App) : Activity → Option App
  | .screen event => app.step event
  | .call id operation =>
      (app.world.step (.call id operation)).map fun world => { app with world := world }

/-- The document that a handler or the listener of a waiting screen is given is absent or
has an `Int` in the field that it casts. -/
def Casts (app : App) : Activity → Prop
  | .screen (.perform pending _) => ∀ path completion data,
      pending.request = .getDocument path completion →
      app.world.firestore.lookup path = some data → (data.int? completion.field).isSome
  | .screen (.snapshot id age) => ∀ client path store data,
      app.clients.lookup id = some client →
      client.waiting.listenDocument.result = some path → app.past[age]? = some store →
      store.lookup path = some data → (data.int? "playerCount").isSome
  | _ => True

end App

/-! ## The schema of the collection -/

/-- A document directly among the games is a killshot document, or it has both counts. -/
def Schema (store : Firestore) : Prop :=
  ∀ text data, store.lookup (games ++ [text]) = some data →
    (∃ room, text = decimal room ++ "ks") ∨
      ((data.int? "playerCount").isSome ∧ (data.int? "totalPlayers").isSome)

theorem decimal_ne_killshotID (value room : Int) : decimal value ≠ decimal room ++ "ks" :=
  decimal_ne_append (show 'k' ∈ "ks".toList by decide) (by decide) (by decide)

theorem int?_ne_killshotID {text : String} {value : Int} (number : int? text = some value)
    (room : Int) : text ≠ decimal room ++ "ks" := by
  intro same
  have member : 'k' ∈ text.toList := by simp [same, String.toList_append]
  rcases isDigit_of_mem_parsed number member with sign | sign | digit
  · exact absurd sign (by decide)
  · exact absurd sign (by decide)
  · exact absurd digit (by decide)

theorem game_ne_below {room : Int} {collection name : String} {path : ResourcePath}
    (named : document? (gameRef room ++ [collection]) name = some path) (text : String) :
    path ≠ games ++ [text] := by
  rw [document?_eq_some named]
  exact below_ne_game room collection text (split name)

theorem Schema.write_elsewhere {store : Firestore} (schema : Schema store) {write : Write}
    (elsewhere : ∀ text, write.path ≠ games ++ [text]) : Schema (write.apply store) := by
  intro text data found
  rw [Write.lookup_apply_of_ne (elsewhere text).symm] at found
  exact schema text data found

theorem Schema.applyTo {store : Firestore} (schema : Schema store) {pending : Pending}
    (issued : Issued pending.operation pending.request) : Schema (pending.applyTo store) := by
  rcases pending with ⟨call, operation, request⟩
  rcases issued with asked | answered
  · change Asked operation request at asked
    cases asked with
    | opens opened =>
        intro text data found
        by_cases own : games ++ [text] = gameRef operation.room
        · rw [own] at found
          rcases Option.some.inj ((Write.lookup_setData _ _ _).symm.trans found) with rfl
          exact .inr ⟨by simp, by simp⟩
        · exact schema text data ((Write.lookup_apply_of_ne own _).symm.trans found)
    | registers _ named => exact schema.write_elsewhere fun text => game_ne_below named text
    | phones device =>
        exact schema.write_elsewhere fun text =>
          game_ne_below (document?_phone operation.room device) text
    | removes _ named => exact schema.write_elsewhere fun text => game_ne_below named text
    | reads | uploads => exact schema
    | publishes data =>
        intro text found' found
        by_cases own : games ++ [text] = TabBarVC.killshotRef operation.room
        · exact .inl ⟨operation.room, by simpa [TabBarVC.killshotRef] using own⟩
        · exact schema text found' ((Write.lookup_apply_of_ne own _).symm.trans found)
  · change Answered operation request at answered
    cases answered with
    | counts count =>
        intro text data found
        by_cases own : games ++ [text] = gameRef operation.room
        · have merged := (Write.lookup_updateData (gameRef operation.room) (countFields count)
            store).symm.trans (own ▸ found)
          rcases Option.map_eq_some_iff.mp merged with ⟨before, there, rfl⟩
          rcases schema text before (own ▸ there) with shot | ⟨_, total⟩
          · exact .inl shot
          · exact .inr ⟨by simp, by simpa using total⟩
        · exact schema text data ((Write.lookup_apply_of_ne own _).symm.trans found)
    | files data _ named => exact schema.write_elsewhere fun text => game_ne_below named text

theorem Schema.counted {store : Firestore} (schema : Schema store) {room : Int}
    {data : Document} (found : store.lookup (gameRef room) = some data) :
    (data.int? "playerCount").isSome ∧ (data.int? "totalPlayers").isSome := by
  rcases schema _ data found with ⟨other, same⟩ | both
  · exact absurd same (decimal_ne_killshotID room other)
  · exact both

/-! ## Runs -/

namespace App

/-- The present and the past documents keep the schema, and every waiting screen holds a
text that `Int(text)` accepts. -/
structure Typed (app : App) : Prop where
  traced : app.world.Traced
  schema : Schema app.world.firestore
  past : ∀ store ∈ app.past, Schema store
  numbered : ∀ id client, app.clients.lookup id = some client →
    (int? client.waiting.roomNumber).isSome

namespace Typed

variable {app next : App}

theorem start : Typed App.start where
  traced := traced_start ∅ ∅
  schema _ _ found := by cases found
  past store member := by
    rw [List.mem_singleton.mp member]
    intro _ _ found
    cases found
  numbered _ _ known := by cases known

theorem insert (typed : app.Typed) {client : Client}
    (numbered : (int? client.waiting.roomNumber).isSome) (id : CallId) :
    Typed { app with clients := app.clients.insert id client } := by
  exact { typed with numbered := Entries.forall_insert numbered typed.numbered }

theorem erase (typed : app.Typed) (id : CallId) :
    Typed { app with clients := app.clients.erase id } := by
  exact { typed with numbered := Entries.forall_erase typed.numbered id }

theorem listened (typed : app.Typed) {id : CallId} {client : Client}
    (known : app.clients.lookup id = some client) (snapshot : Option Document) :
    Typed (app.shown id client snapshot) := by
  have numbered := typed.numbered id client known
  unfold App.shown
  split
  · exact typed.erase id
  · rename_i waiting ran
    refine typed.insert ?_ id
    rw [(WaitingVC.completion_keeps ran).1]
    exact numbered
  · rename_i waiting ran
    split
    · exact typed.erase id
    · refine typed.insert ?_ id
      rw [(WaitingVC.completion_keeps ran).1]
      exact numbered

theorem called (typed : app.Typed) {id : CallId} {operation : Operation}
    (stepped : app.world.step (.call id operation) = some next.world)
    (past : next.past = app.past)
    (numbered : ∀ id client, next.clients.lookup id = some client →
      (int? client.waiting.roomNumber).isSome) : next.Typed where
  traced := typed.traced.step stepped
  schema := by
    rw [(step_call.mp stepped).2]
    exact typed.schema
  past := past ▸ typed.past
  numbered := numbered

theorem performed (typed : app.Typed) {pending : Pending} {killerTarget : Option Player}
    (stepped : app.world.step (.perform pending killerTarget) = some next.world)
    (past : next.past = next.world.firestore :: app.past)
    (clients : next.clients = app.clients) : next.Typed := by
  have schema : Schema next.world.firestore := by
    rcases step_perform.mp stepped with ⟨ready, result⟩
    rw [result]
    exact typed.schema.applyTo (typed.traced.issued ready.1)
  refine ⟨typed.traced.step stepped, schema, fun store member => ?_, clients ▸ typed.numbered⟩
  rw [past] at member
  rcases List.mem_cons.mp member with rfl | old
  · exact schema
  · exact typed.past store old

theorem entered (typed : app.Typed) {id : CallId} {operation : Operation} {screen : WaitingVC}
    (leads : operation.Leads screen)
    (stepped : app.world.step (.call id operation) = some next.world)
    (past : next.past = app.past)
    (clients : next.clients = if operation.action.result = some () then
        app.clients.insert id ⟨screen, none, false⟩
      else app.clients) : next.Typed := by
  refine typed.called stepped past ?_
  rw [clients]
  split
  · refine (typed.insert ?_ id).numbered
    rw [leads.roomNumber]
    rfl
  · exact typed.numbered

theorem step [Canonical] (typed : app.Typed) {event : Event}
    (stepped : app.step event = some next) : next.Typed := by
  cases effect_of_step stepped with
  | entered screen leads _ called past clients => exact typed.entered leads called past clients
  | performed done past clients => exact typed.performed done past clients
  | listened known => exact typed.listened known _
  | answered known =>
      have numbered := typed.numbered _ _ known
      refine typed.insert ?_ _
      exact numbered
  | waited world past clients =>
      exact ⟨world ▸ typed.traced, world ▸ typed.schema, past ▸ typed.past,
        clients ▸ typed.numbered⟩

theorem act [Canonical] (typed : app.Typed) {activity : Activity}
    (acted : app.act activity = some next) : next.Typed := by
  cases activity with
  | screen event => exact typed.step acted
  | call id operation =>
      rcases Option.map_eq_some_iff.mp acted with ⟨world, stepped, rfl⟩
      exact typed.called stepped rfl typed.numbered

theorem casts [Canonical] (typed : app.Typed) {activity : Activity}
    (acted : app.act activity = some next) : app.Casts activity := by
  cases activity with
  | call => trivial
  | screen event =>
      cases event with
      | perform pending killerTarget =>
          intro path completion data request found
          rcases Option.map_eq_some_iff.mp acted with ⟨world, stepped, rfl⟩
          have ready := (step_perform.mp stepped).1
          have issued := typed.traced.issued ready.1
          rw [request] at issued
          have own := issued.reads_gameRef
          rw [own] at found
          cases completion with
          | addPlayer | removePlayer => exact (typed.schema.counted found).1
          | addKillshot => exact (typed.schema.counted found).2
      | snapshot id age =>
          intro client path store data known listens kept found
          rcases Option.isSome_iff_exists.mp (typed.numbered id client known) with
            ⟨value, number⟩
          have named : document? games client.waiting.roomNumber = some path := listens
          rw [document?_of_int? number, Option.some.injEq] at named
          subst named
          rcases typed.past store (List.mem_of_getElem? kept) _ data found with
            ⟨room, shot⟩ | ⟨count, _⟩
          · exact absurd shot (int?_ne_killshotID number room)
          · exact count
      | createRoom | joinGame | found | answered => trivial

end Typed

/-- Whatever the screens do and whatever calls are made, in any order and with any room
numbers and texts, no forced cast of a count fails. -/
theorem forced_casts_succeed [Canonical] {activities : List Activity} {final : App}
    (performed : run App.act App.start activities = some final) :
    Meets App.act Casts App.start activities :=
  run_meets Typed (fun _ _ _ typed acted => typed.act acted)
    (fun _ _ _ typed acted => typed.casts acted) Typed.start performed

def play [Canonical] (app : App) : List (Option Activity) → List Activity
  | [] => []
  | some activity :: script => activity :: ((app.act activity).getD app).play script
  | none :: script =>
      match app.world.outstanding with
      | [] => app.play script
      | pending :: _ => .screen (.perform pending none) ::
          ((app.act (.screen (.perform pending none))).getD app).play script

section Sample

open Ascii

/-- Room 7 is opened, a killshot is published in it, a player joins and its waiting screen is
shown the game document. -/
def roomWithKillshot : List Activity :=
  App.start.play [
    some (.call 0 (.addGame (Game.init 7 2 "noon"))), none,
    some (.call 1 (.uploadKillshotName ⟨7, "ann", "bob"⟩ "bob")), none,
    some (.screen (.joinGame 2 ⟨"bob", some someImage, "7"⟩)),
    some (.screen (.found 2 ⟨"bob", some someImage, "7"⟩ (some somePhone))),
    none, none, none, none, none, some (.screen (.snapshot 2 0))]

theorem forced_casts_succeed_room : Meets App.act Casts App.start roomWithKillshot := by
  have ends : (run App.act App.start roomWithKillshot).any
      (fun final => final.world.outstanding = []) = true := by decide
  rcases run_ends ends with ⟨final, performed, _⟩
  exact forced_casts_succeed performed

end Sample

end App

end AssassinGame
