import AssassinGame.Rooms.Schema

/-! # The phones in use

Screens are opened, filled in and edited at any time, also while a lookup is under way. What
goes into a call is what the screen holds when its button is pressed or when the answer
arrives, so what can be made of the games follows from what can be done on the screens.
-/

namespace AssassinGame

open AssassinGame.Action Transition World Segments

/-! ## Screens on the phones -/

def App.found? (app : App) (id : CallId) : Option Document :=
  (app.lookups.lookup id).bind fun path => app.world.firestore.lookup path

/-- The phones with the screens that are open on them. -/
structure Handsets where
  app : App
  creating : AList fun _ : Nat => CreateGameVC
  joining : AList fun _ : Nat => JoinGameVC
  /-- The screens that wait for the answer to a lookup. -/
  asking : List (CallId × Nat)
  /-- The phones that have trapped on the game screen. -/
  gone : List CallId

namespace Handsets

inductive Event
  | openCreate (screen : Nat)
  | fillIn (screen : Nat) (touch : CreateGameVC.Touch)
  | createRoom (screen : Nat) (id : CallId) (shuffled : Shuffle Nat) (date : String)
      (deviceID : Option UUID)
  | openJoin (screen : Nat)
  | edit (screen : Nat) (touch : JoinGameVC.Touch)
  | joinGame (screen : Nat) (id : CallId)
  | found (id : CallId) (deviceID : Option UUID)
  | perform (pending : Pending)
  | snapshot (id : CallId) (age : Nat)
  | answered (id : CallId) (shuffle : Shuffle String)
  /-- A phone takes a picture on its game screen, which makes the call `call`. -/
  | takePicture (id call : CallId) (img : UIImage)

def start : Handsets where
  app := App.start
  creating := ∅
  joining := ∅
  asking := []
  gone := []

def present? (self : Handsets) (id : CallId) : Option Client :=
  if id ∈ self.gone then none else self.app.clients.lookup id

/-- One event; `none` when it cannot happen. A screen that traps is closed, and a phone that
traps on the game screen is not shown anything any more. -/
def step [Canonical] (self : Handsets) : Event → Option Handsets
  | .openCreate screen =>
      some { self with creating := self.creating.insert screen .viewDidLoad }
  | .fillIn screen touch => do
      let form ← self.creating.lookup screen
      return { self with creating := self.creating.insert screen (form.touch touch) }
  | .createRoom screen id shuffled date deviceID => do
      let form ← self.creating.lookup screen
      let app ← self.app.step (.createRoom id form shuffled date deviceID)
      return { self with
        app := app
        creating := if (form.createRoom shuffled date deviceID).result = none then
            self.creating.erase screen
          else self.creating }
  | .openJoin screen =>
      -- a lookup may be under way for a screen that has been opened before
      if screen ∈ self.joining then none
      else some { self with joining := self.joining.insert screen .viewDidLoad }
  | .edit screen touch => do
      let form ← self.joining.lookup screen
      return { self with joining := self.joining.insert screen (form.touch touch) }
  | .joinGame screen id => do
      let form ← self.joining.lookup screen
      if form.joinGame.result = none then
        return { self with joining := self.joining.erase screen }
      else
        let app ← self.app.step (.joinGame id form)
        return { self with app := app, asking := (id, screen) :: self.asking }
  | .found id deviceID => do
      let screen ← self.asking.lookup id
      let form ← self.joining.lookup screen
      let app ← self.app.step (.found id form deviceID)
      let shown := JoinGameVC.joinGame.completion form deviceID (self.app.found? id)
      return { self with
        app := app
        joining := if shown.result = none then self.joining.erase screen else self.joining
        asking := self.asking.eraseP (·.1 = id) }
  | .perform pending => do
      -- nothing on the screens calls `saveImage`, so no handler asks for a target
      let app ← self.app.step (.perform pending none)
      return { self with app := app }
  | .snapshot id age => do
      let _ ← self.present? id
      let app ← self.app.step (.snapshot id age)
      return { self with app := app }
  | .answered id shuffle => do
      let _ ← self.present? id
      let app ← self.app.step (.answered id shuffle)
      return { self with app := app }
  | .takePicture id call img => do
      let client ← self.present? id
      let screen ← client.playing
      let app ← self.app.act (.call call (.imagePickerController screen img))
      return { self with
        app := app
        gone := if (screen.imagePickerController img).result = none then id :: self.gone
          else self.gone }

end Handsets

/-! ## What the screens hold -/

/-- The label shows a number of players that the stepper can be set to. -/
def CreateGameVC.Filled (screen : CreateGameVC) : Prop :=
  ∃ count, int? screen.numOfPlayers = some count ∧ 0 ≤ count ∧ count ≤ 100

theorem CreateGameVC.filled_viewDidLoad : viewDidLoad.Filled :=
  ⟨1, @int?_decimal 1 (by decide) (by decide), by decide, by decide⟩

theorem CreateGameVC.Filled.touch {screen : CreateGameVC} (filled : screen.Filled)
    (touch : Touch) : (screen.touch touch).Filled := by
  cases touch with
  | type text => exact filled
  | pick image => cases image <;> exact filled
  | step value =>
      have reads := @int?_decimal (value : Nat) (by omega) (by omega)
      exact ⟨(value : Nat), reads, by omega, by omega⟩

namespace App

/-- The activity is one of the screens: what a create screen passes on has been filled in, and
any other call is made by the camera of a game screen. -/
def Uses (app : App) : Activity → Prop
  | .screen (.createRoom _ screen _ _ _) => screen.Filled
  | .screen _ => True
  | .call _ operation => ∃ id client screen img, app.clients.lookup id = some client ∧
      client.playing = some screen ∧ operation = .imagePickerController screen img

end App

namespace Handsets

def Filled (handsets : Handsets) : Prop :=
  ∀ screen form, handsets.creating.lookup screen = some form → form.Filled

variable {handsets next final : Handsets} {event : Event} {events : List Event}

theorem filled_start : start.Filled := nofun

theorem known_of_present {id : CallId} {client : Client}
    (present : handsets.present? id = some client) :
    handsets.app.clients.lookup id = some client := by
  rw [present?] at present
  exact (Option.ite_none_left_eq_some.mp present).2

/-- What an event can do: open a create screen, touch one, touch nothing but a join screen, or
be an activity of the phones, after which a create screen may be closed. -/
inductive Effect [Canonical] (handsets next : Handsets) : Prop
  | opened (screen : Nat) : next.app = handsets.app →
      next.creating = handsets.creating.insert screen .viewDidLoad → Effect handsets next
  | touched {screen : Nat} {form : CreateGameVC} (touch : CreateGameVC.Touch) :
      handsets.creating.lookup screen = some form → next.app = handsets.app →
      next.creating = handsets.creating.insert screen (form.touch touch) →
      Effect handsets next
  | edited : next.app = handsets.app → next.creating = handsets.creating →
      Effect handsets next
  | acted (activity : App.Activity) : (handsets.Filled → handsets.app.Uses activity) →
      handsets.app.act activity = some next.app →
      (next.creating = handsets.creating ∨
        ∃ screen, next.creating = handsets.creating.erase screen) → Effect handsets next

theorem effect_of_step [Canonical] (stepped : handsets.step event = some next) :
    Effect handsets next := by
  cases event with
  | openCreate screen =>
      cases stepped
      exact .opened screen rfl rfl
  | fillIn screen touch =>
      rcases Option.bind_eq_some_iff.mp stepped with ⟨form, shown, same⟩
      cases same
      exact .touched touch shown rfl rfl
  | createRoom screen id shuffled date deviceID =>
      rcases Option.bind_eq_some_iff.mp stepped with ⟨form, shown, rest⟩
      rcases Option.bind_eq_some_iff.mp rest with ⟨app, acted, same⟩
      cases same
      refine .acted (.screen (.createRoom id form shuffled date deviceID))
        (fun filled => filled screen form shown) acted ?_
      dsimp only
      split
      · exact .inr ⟨screen, rfl⟩
      · exact .inl rfl
  | openJoin screen =>
      simp only [step] at stepped
      split at stepped
      · cases stepped
      · cases stepped
        exact .edited rfl rfl
  | edit screen touch =>
      rcases Option.bind_eq_some_iff.mp stepped with ⟨form, _, same⟩
      cases same
      exact .edited rfl rfl
  | joinGame screen id =>
      rcases Option.bind_eq_some_iff.mp stepped with ⟨form, _, rest⟩
      split at rest
      · cases rest
        exact .edited rfl rfl
      · rcases Option.bind_eq_some_iff.mp rest with ⟨app, acted, same⟩
        cases same
        exact .acted (.screen (.joinGame id form)) (fun _ => trivial) acted (.inl rfl)
  | found id deviceID =>
      rcases Option.bind_eq_some_iff.mp stepped with ⟨screen, _, rest⟩
      rcases Option.bind_eq_some_iff.mp rest with ⟨form, _, last⟩
      rcases Option.bind_eq_some_iff.mp last with ⟨app, acted, same⟩
      cases same
      exact .acted (.screen (.found id form deviceID)) (fun _ => trivial) acted (.inl rfl)
  | perform pending =>
      rcases Option.bind_eq_some_iff.mp stepped with ⟨app, acted, same⟩
      cases same
      exact .acted (.screen (.perform pending none)) (fun _ => trivial) acted (.inl rfl)
  | snapshot id age =>
      rcases Option.bind_eq_some_iff.mp stepped with ⟨_, _, rest⟩
      rcases Option.bind_eq_some_iff.mp rest with ⟨app, acted, same⟩
      cases same
      exact .acted (.screen (.snapshot id age)) (fun _ => trivial) acted (.inl rfl)
  | answered id shuffle =>
      rcases Option.bind_eq_some_iff.mp stepped with ⟨_, _, rest⟩
      rcases Option.bind_eq_some_iff.mp rest with ⟨app, acted, same⟩
      cases same
      exact .acted (.screen (.answered id shuffle)) (fun _ => trivial) acted (.inl rfl)
  | takePicture id call img =>
      rcases Option.bind_eq_some_iff.mp stepped with ⟨client, present, rest⟩
      rcases Option.bind_eq_some_iff.mp rest with ⟨screen, plays, last⟩
      rcases Option.bind_eq_some_iff.mp last with ⟨app, acted, same⟩
      cases same
      refine .acted (.call call (.imagePickerController screen img)) (fun _ => ?_) acted
        (.inl rfl)
      exact ⟨id, client, screen, img, known_of_present present, plays, rfl⟩

theorem Filled.step [Canonical] (filled : handsets.Filled)
    (stepped : handsets.step event = some next) : next.Filled := by
  unfold Filled
  cases effect_of_step stepped with
  | opened screen _ creating =>
      rw [creating]
      exact Entries.forall_insert CreateGameVC.filled_viewDidLoad filled
  | @touched screen form touch shown _ creating =>
      rw [creating]
      exact Entries.forall_insert ((filled screen form shown).touch touch) filled
  | edited _ creating =>
      rw [creating]
      exact filled
  | acted activity _ _ creating =>
      rcases creating with same | ⟨screen, closed⟩
      · rw [same]
        exact filled
      · rw [closed]
        exact Entries.forall_erase filled screen

/-- What is done on create and join screens is not seen of the phones until a button is
pressed or an answer arrives. -/
theorem follows [Canonical] (filled : handsets.Filled)
    (stepped : handsets.step event = some next) :
    next.app = handsets.app ∨
      ∃ activity, handsets.app.Uses activity ∧ handsets.app.act activity = some next.app := by
  cases effect_of_step stepped with
  | opened screen same _ => exact .inl same
  | touched touch _ same _ => exact .inl same
  | edited same _ => exact .inl same
  | acted activity uses acted _ => exact .inr ⟨activity, uses filled, acted⟩

theorem run_activities [Canonical] (performed : run Handsets.step start events = some final) :
    ∃ activities, Meets App.act App.Uses App.start activities ∧
      run App.act App.start activities = some final.app := by
  have filled : Meets Handsets.step (fun handsets _ => handsets.Filled) start events :=
    run_meets Filled (fun _ _ _ filled stepped => filled.step stepped)
      (fun _ _ _ filled _ => filled) filled_start performed
  exact @run_follows _ _ Handsets.step (fun handsets _ => handsets.Filled) _ _ App.act App.Uses
    Handsets.app (fun filled stepped => follows filled stepped) _ _ _ filled performed

def play [Canonical] (handsets : Handsets) : List (Option Event) → List Event
  | [] => []
  | some event :: script => event :: ((handsets.step event).getD handsets).play script
  | none :: script =>
      match handsets.app.world.outstanding with
      | [] => handsets.play script
      | pending :: _ => .perform pending ::
          ((handsets.step (.perform pending)).getD handsets).play script

end Handsets

end AssassinGame
