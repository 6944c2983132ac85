import AssassinGame.Foundation.Entries
import AssassinGame.Foundation.Feed
import AssassinGame.Rooms.Isolation
import AssassinGame.Targets.Killshots

/-! # What the judges see

A killshot is published without waiting for its picture, all pictures of one target lie under
one path, and the handler of a download does not look whether a later killshot has been published
since. The judges see the published picture when none of this comes to bear.
-/

namespace AssassinGame

open AssassinGame.Action TabBarVC Transition World

/-! ## Phones that listen to the killshot document -/

/-- A value of the killshot document. -/
structure Publication where
  value : Option Document
  /-- The picture of the killshot that has been published last with this value. -/
  picture : Option Data

def Publication.reference? (room : Int) (publication : Publication) : Option StoragePath :=
  (publication.value.bind (·.string? "name")).map (killshotPhotoRef room)

/-- A value that was there before the first killshot. The picture found with it counts as its
own. -/
def Publication.found (room : Int) (firestore : Firestore) (storage : Storage) : Publication :=
  let value := firestore.lookup (killshotRef room)
  ⟨value, ((Publication.mk value none).reference? room).bind storage.lookup⟩

structure Judge where
  screen : TabBarVC
  /-- The picture in `toJudge`. -/
  toJudge : Option Data
  /-- How far each of its listeners has got in the values of the document. -/
  listeners : List Nat
  downloads : List Download

structure Judging where
  world : World
  /-- The values that the room's killshot document had before. -/
  past : List Publication
  /-- The value that it has. -/
  current : Publication
  phones : AList fun _ : Nat => Judge

namespace Judging

inductive Event
  | act (event : AssassinGame.Event)
  /-- The view of a phone appears, for the first time or again. -/
  | appear (id : Nat) (screen : TabBarVC)
  | delivered (id listener place : Nat)
  | served (id place : Nat)
  | downloaded (id place : Nat)

def start (room : Int) (firestore : Firestore) (storage : Storage) : Judging where
  world := World.start firestore storage
  past := []
  current := .found room firestore storage
  phones := ∅

def values (judging : Judging) : List Publication := judging.past ++ [judging.current]

end Judging

def Pending.publishesIn (room : Int) (pending : Pending) : Bool :=
  match pending.request with
  | .write write => decide (write.path = killshotRef room)
  | _ => false

def Pending.picture? (pending : Pending) : Option Data :=
  match pending.operation with
  | .imagePickerController _ img => img.pngData
  | _ => none

namespace Judging

/-- The stores have moved on. A write that changes nothing in the document is no new value. -/
def moved (room : Int) (judging : Judging) (event : AssassinGame.Event) (world : World) :
    Judging :=
  match event with
  | .perform pending _ =>
      if pending.publishesIn room then
        let publication := ⟨world.firestore.lookup (killshotRef room), pending.picture?⟩
        { judging with
          world := world
          past :=
            if Option.Rel Document.Same judging.current.value publication.value then judging.past
            else judging.past ++ [judging.current]
          current := publication }
      else { judging with world := world }
  | .call _ _ => { judging with world := world }

/-- A phone opens one more listener, on the value that the document has. -/
def joined (judging : Judging) (id : Nat) (screen : TabBarVC) : Judging :=
  { judging with
    phones := judging.phones.insert id <|
      match judging.phones.lookup id with
      | some judge => { judge with listeners := judge.listeners ++ [judging.past.length] }
      | none => ⟨screen, none, [judging.past.length], []⟩ }

def step (room : Int) (judging : Judging) : Event → Option Judging
  | .act event => (judging.world.step event).map (judging.moved room event)
  | .appear id screen =>
      if screen.listenDocument.result = some (killshotRef room) then some (judging.joined id screen)
      else none
  | .delivered id listener place => do
      let judge ← judging.phones.lookup id
      let seen ← judge.listeners[listener]?
      let publication ← Feed.next? judging.values seen place
      return { judging with
        phones := judging.phones.insert id { judge with
          listeners := judge.listeners.set listener (place + 1)
          downloads := judge.downloads ++
            ((listenDocument.completion judge.screen publication.value).map .asked).toList } }
  | .served id place => do
      let judge ← judging.phones.lookup id
      let download ← judge.downloads[place]?
      let served ← download.serve judging.world.storage
      return { judging with
        phones := judging.phones.insert id { judge with
          downloads := judge.downloads.set place served } }
  | .downloaded id place => do
      let judge ← judging.phones.lookup id
      let download ← judge.downloads[place]?
      let object ← download.object?
      return { judging with
        phones := judging.phones.insert id { judge with
          toJudge := getData.completion judge.toJudge object
          downloads := judge.downloads.eraseIdx place } }

def seens (judging : Judging) : List Nat :=
  judging.phones.entries.flatMap fun entry => entry.2.listeners

/-- The values that some listener may still be shown, one that is opened later included. -/
def awaited (judging : Judging) : List Publication :=
  ((judging.past.zipIdx.filter fun entry => judging.seens.any fun seen =>
    decide (seen ≤ entry.2)).map Prod.fst) ++ [judging.current]

end Judging

/-! ## What can go wrong -/

/-- A killshot whose name is written has its picture stored. -/
def Pending.Ready (room : Int) (storage : Storage) (pending : Pending) : Prop :=
  match pending.operation with
  | .imagePickerController screen img => pending.publishesIn room = true →
      storage.lookup (killshotPhotoRef room screen.targetName) = img.pngData
  | _ => True

instance (room : Int) (storage : Storage) :
    ∀ pending : Pending, Decidable (pending.Ready room storage)
  | ⟨_, .imagePickerController _ _, _⟩ => inferInstanceAs (Decidable (_ → _))
  | ⟨_, .addGame _, _⟩ | ⟨_, .addPlayer _ _ _, _⟩ | ⟨_, .removePlayer _ _, _⟩
  | ⟨_, .addKillshot _ _ _ _ _, _⟩ | ⟨_, .uploadKillshotPic _ _, _⟩
  | ⟨_, .uploadKillshotName _ _, _⟩ | ⟨_, .createRoom _ _ _ _, _⟩ =>
      inferInstanceAs (Decidable True)

/-- An upload replaces the picture of no killshot that a listener may still be shown. -/
def Judging.Spares (room : Int) (judging : Judging) (pending : Pending) : Prop :=
  match pending.request with
  | .putData path data => ∀ publication ∈ judging.awaited,
      publication.reference? room = some path → publication.picture = some data
  | _ => True

instance (room : Int) (judging : Judging) : ∀ pending, Decidable (judging.Spares room pending)
  | ⟨_, _, .putData path data⟩ => inferInstanceAs (Decidable (∀ publication ∈ judging.awaited,
      publication.reference? room = some path → publication.picture = some data))
  | ⟨_, _, .write _⟩ | ⟨_, _, .getDocument _ _⟩ => inferInstanceAs (Decidable True)

/-- The download brings the picture that has been published last, or the phone is still to be
shown its name or to download it. -/
def Judging.Current (room : Int) (judging : Judging) (judge : Judge) (place : Nat) : Prop :=
  (∀ download ∈ judge.downloads[place]?, download.Brings judging.current.picture) ∨
  (∃ seen ∈ judge.listeners, seen ≤ judging.past.length) ∨
  ∃ download ∈ judge.downloads.eraseIdx place,
    judging.current.reference? room = some download.path ∧
      download.Brings judging.current.picture

instance (room : Int) (judging : Judging) (judge : Judge) (place : Nat) :
    Decidable (judging.Current room judge place) :=
  inferInstanceAs (Decidable (_ ∨ _ ∨ _))

/-- Names are published after their pictures, pictures stay as long as they are awaited, and
what is out of date is not downloaded last. -/
def Careful (room : Int) (judging : Judging) : Judging.Event → Prop
  | .act (.perform pending _) =>
      pending.Ready room judging.world.storage ∧ judging.Spares room pending
  | .downloaded id place => ∀ judge ∈ judging.phones.lookup id, judging.Current room judge place
  | .act (.call _ _) | .appear _ _ | .delivered _ _ _ | .served _ _ => True

instance (room : Int) (judging : Judging) : ∀ event, Decidable (Careful room judging event)
  | .act (.perform _ _) => inferInstanceAs (Decidable (_ ∧ _))
  | .downloaded id place => inferInstanceAs (Decidable (∀ judge ∈ judging.phones.lookup id,
      judging.Current room judge place))
  | .act (.call _ _) | .appear _ _ | .delivered _ _ _ | .served _ _ =>
      inferInstanceAs (Decidable True)

def Operation.isShot : Operation → Bool
  | .imagePickerController _ _ => true
  | _ => false

def OnlyShots (room : Int) (_ : Judging) : Judging.Event → Prop
  | .act (.call _ operation) => operation.room = room → operation.isShot = true
  | .act (.perform _ _) | .appear _ _ | .delivered _ _ _ | .served _ _ | .downloaded _ _ => True

instance (room : Int) (judging : Judging) : ∀ event, Decidable (OnlyShots room judging event)
  | .act (.call _ _) => inferInstanceAs (Decidable (_ → _))
  | .act (.perform _ _) | .appear _ _ | .delivered _ _ _ | .served _ _ | .downloaded _ _ =>
      inferInstanceAs (Decidable True)

def Publication.Stored (room : Int) (storage : Storage) (publication : Publication) : Prop :=
  ∀ reference ∈ publication.reference? room,
    publication.picture.isSome = true ∧ storage.lookup reference = publication.picture

instance (room : Int) (storage : Storage) (publication : Publication) :
    Decidable (publication.Stored room storage) :=
  inferInstanceAs (Decidable (∀ reference ∈ publication.reference? room, _ ∧ _))

/-- A phone that processes a published name finds the picture of that killshot where it
downloads it from. -/
def FindsPicture (judging : Judging) : Judging.Event → Prop
  | .delivered id listener place => ∀ judge ∈ judging.phones.lookup id,
      ∀ seen ∈ judge.listeners[listener]?, ∀ publication ∈ Feed.next? judging.values seen place,
        ∀ reference ∈ listenDocument.completion judge.screen publication.value,
          publication.picture.isSome = true ∧
            judging.world.storage.lookup reference = publication.picture
  | .act _ | .appear _ _ | .served _ _ | .downloaded _ _ => True

instance (judging : Judging) : ∀ event, Decidable (FindsPicture judging event)
  | .delivered id listener place => inferInstanceAs (Decidable (∀ judge ∈ judging.phones.lookup id,
      ∀ seen ∈ judge.listeners[listener]?, ∀ publication ∈ Feed.next? judging.values seen place,
        ∀ reference ∈ listenDocument.completion judge.screen publication.value, _ ∧ _))
  | .act _ | .appear _ _ | .served _ _ | .downloaded _ _ => inferInstanceAs (Decidable True)

/-- Nothing is in flight for the phone: its listeners have been shown the value that the document
has, and no picture is being downloaded. -/
def Judge.Quiet (judging : Judging) (judge : Judge) : Prop :=
  (∀ seen ∈ judge.listeners, judging.past.length < seen) ∧ judge.downloads = []

instance (judging : Judging) (judge : Judge) : Decidable (judge.Quiet judging) :=
  inferInstanceAs (Decidable (_ ∧ _))

/-! ## What a run keeps -/

/-- The phone is still to be shown the name published last, or to download its picture, or shows
it. -/
structure Judge.Follows (room : Int) (judging : Judging) (judge : Judge) : Prop where
  own : judge.screen.roomNumber = room
  listens : judge.listeners ≠ []
  within : ∀ seen ∈ judge.listeners, seen ≤ judging.past.length + 1
  shows : ∀ reference ∈ judging.current.reference? room,
    (∃ seen ∈ judge.listeners, seen ≤ judging.past.length) ∨
      (∃ download ∈ judge.downloads, download.path = reference ∧
        download.Brings judging.current.picture) ∨
      judge.toJudge = judging.current.picture

theorem Judge.Follows.keeps {room : Int} {judging next : Judging} {judge : Judge}
    (follows : judge.Follows room judging) (past : next.past = judging.past)
    (current : next.current = judging.current) : judge.Follows room next where
  own := follows.own
  listens := follows.listens
  within := past ▸ follows.within
  shows := by
    rw [past, current]
    exact follows.shows

inductive Pending.OfShot : Pending → Prop
  | uploads {shot : Killshot} {data : Data} (png : shot.img.pngData = some data) :
      OfShot (shot.uploads data)
  | publishes {shot : Killshot} {data : Data} (png : shot.img.pngData = some data) :
      OfShot shot.publishes

/-- The pictures that are awaited are stored, and every phone follows. -/
structure Judged (room : Int) (judging : Judging) : Prop where
  traced : judging.world.Traced
  shots : ∀ pending ∈ judging.world.outstanding, pending.operation.room = room →
    pending.OfShot
  stored : ∀ publication ∈ judging.awaited, publication.Stored room judging.world.storage
  phones : ∀ id judge, judging.phones.lookup id = some judge → judge.Follows room judging

section Awaited

variable {judging : Judging} {publication : Publication}

theorem mem_seens {seen : Nat} : seen ∈ judging.seens ↔
    ∃ id judge, judging.phones.lookup id = some judge ∧ seen ∈ judge.listeners := by
  simp only [Judging.seens, List.mem_flatMap, Sigma.exists, ← AList.mem_lookup_iff,
    Option.mem_def]

theorem mem_awaited : publication ∈ judging.awaited ↔
    publication = judging.current ∨ ∃ place, judging.past[place]? = some publication ∧
      ∃ seen ∈ judging.seens, seen ≤ place := by
  simp only [Judging.awaited, List.mem_append, List.mem_map, List.mem_filter, Prod.exists,
    exists_and_right, exists_eq_right, List.mem_zipIdx_iff_getElem?, List.any_eq_true,
    decide_eq_true_eq, List.mem_singleton]
  exact or_comm

theorem mem_awaited_of_values {seen place : Nat} (member : seen ∈ judging.seens)
    (later : seen ≤ place) (there : judging.values[place]? = some publication) :
    publication ∈ judging.awaited := by
  rw [mem_awaited]
  by_cases before : place < judging.past.length
  · rw [Judging.values, List.getElem?_append_left before] at there
    exact .inr ⟨place, there, seen, member, later⟩
  · rw [Judging.values, List.getElem?_append_right (by omega)] at there
    exact .inl (List.mem_singleton.mp (List.mem_of_getElem? there))

theorem mem_awaited_of_next? {id seen place : Nat} {judge : Judge}
    (found : judging.phones.lookup id = some judge) (member : seen ∈ judge.listeners)
    (shown : Feed.next? judging.values seen place = some publication) :
    publication ∈ judging.awaited := by
  rcases Feed.next?_eq_some.mp shown with ⟨later, there⟩
  exact mem_awaited_of_values (mem_seens.mpr ⟨id, judge, found, member⟩) later there

end Awaited

section Moves

variable {room : Int} {judging : Judging} {pending : Pending} {shot : Killshot} {data : Data}

theorem quiet_of_other (issued : Issued pending.operation pending.request)
    (other : pending.operation.room ≠ room) :
    pending.publishesIn room = false ∧ ∀ name storage,
      (pending.uploadTo storage).lookup (killshotPhotoRef room name) =
        storage.lookup (killshotPhotoRef room name) := by
  constructor
  · rcases pending with ⟨call, operation, request⟩
    cases request with
    | write write =>
        refine decide_eq_false fun same => other ?_
        have owned := Issued.ownsDocument issued
        rw [same] at owned
        exact ownsDocument_unique owned (.inr (List.prefix_refl _))
    | putData | getDocument => rfl
  · exact fun name => lookup_uploadTo_of_other issued other (ownsPicture_killshotPhotoRef room name)

theorem publishesIn_publishes (own : shot.screen.roomNumber = room) :
    shot.publishes.publishesIn room = true := by
  subst own
  exact decide_eq_true rfl

theorem moved_of_quiet (quiet : pending.publishesIn room = false)
    (killerTarget : Option Player) (world : World) :
    judging.moved room (.perform pending killerTarget) world = { judging with world := world } := by
  rw [Judging.moved, quiet]
  rfl

theorem string?_name_of_same {left right : Option Document}
    (same : Option.Rel Document.Same left right) :
    left.bind (·.string? "name") = right.bind (·.string? "name") := by
  cases same with
  | none => rfl
  | some fields => simp only [Option.bind_some, Document.string?, fields "name"]

theorem Judged.shots_perform (judged : Judged room judging)
    (member : pending ∈ judging.world.outstanding) (killerTarget : Option Player) :
    ∀ other ∈ (judging.world.perform pending killerTarget).outstanding,
      other.operation.room = room → other.OfShot := by
  intro other inside own
  rcases mem_outstanding_perform inside with old | new
  · exact judged.shots other old own
  · have issuer := (answered_of_mem_followUps (judged.traced.issued member) new).2.1
    cases judged.shots pending member (issuer ▸ own) with
    | uploads => cases new
    | publishes => cases new

theorem Judged.keeps (judged : Judged room judging) {world : World} (traced : world.Traced)
    (shots : ∀ pending ∈ world.outstanding, pending.operation.room = room →
      pending.OfShot)
    (stored : ∀ publication ∈ judging.awaited, publication.Stored room world.storage) :
    Judged room { judging with world := world } where
  traced := traced
  shots := shots
  stored := stored
  phones := fun id judge found => (judged.phones id judge found).keeps rfl rfl

theorem Judged.call (judged : Judged room judging) {id : CallId} {operation : Operation}
    (only : OnlyShots room judging (.act (.call id operation)))
    (traced : (judging.world.issue id operation).Traced) :
    Judged room { judging with world := judging.world.issue id operation } := by
  refine judged.keeps traced (fun pending member own => ?_) judged.stored
  rcases mem_outstanding_issue.mp member with old | ⟨rfl, rfl, asked⟩
  · exact judged.shots pending old own
  · have shoots := only own
    rcases pending with ⟨call, operation, request⟩
    cases operation with
    | imagePickerController screen img =>
        cases png : img.pngData with
        | none => simp [Operation.action, imagePickerController, uploadKillshotPic,
            bind_requests, bind_result, png] at asked
        | some data =>
            rw [Operation.action, imagePickerController_requests png] at asked
            let shot : Killshot := ⟨call, screen, img⟩
            rcases List.mem_cons.mp asked with rfl | named
            · exact .uploads (show shot.img.pngData = some data from png)
            · cases List.mem_singleton.mp named
              exact .publishes (show shot.img.pngData = some data from png)
    | addGame | addPlayer | removePlayer | addKillshot | uploadKillshotPic | uploadKillshotName
    | createRoom => cases shoots

theorem Judged.performOther (judged : Judged room judging)
    (member : pending ∈ judging.world.outstanding) (other : pending.operation.room ≠ room)
    (killerTarget : Option Player) (traced : (judging.world.perform pending killerTarget).Traced) :
    Judged room { judging with world := judging.world.perform pending killerTarget } := by
  have quiet := quiet_of_other (judged.traced.issued member) other
  refine judged.keeps traced (judged.shots_perform member killerTarget) ?_
  intro publication awaited reference there
  rcases Option.map_eq_some_iff.mp there with ⟨name, _, rfl⟩
  have stored := judged.stored publication awaited _ there
  exact ⟨stored.1, (quiet.2 name _).trans stored.2⟩

theorem Judged.upload (judged : Judged room judging)
    (member : shot.uploads data ∈ judging.world.outstanding)
    (spares : judging.Spares room (shot.uploads data)) (killerTarget : Option Player)
    (traced : (judging.world.perform (shot.uploads data) killerTarget).Traced) :
    Judged room
      { judging with world := judging.world.perform (shot.uploads data) killerTarget } := by
  refine judged.keeps traced (judged.shots_perform member killerTarget) ?_
  intro publication awaited reference there
  have stored := judged.stored publication awaited reference there
  by_cases own : reference = killshotPhotoRef shot.screen.roomNumber shot.screen.targetName
  · subst own
    have same := spares publication awaited there
    exact ⟨stored.1, (AList.lookup_insert _).trans same.symm⟩
  · exact ⟨stored.1, (AList.lookup_insert_ne own).trans stored.2⟩

def Killshot.published (shot : Killshot) : Publication :=
  ⟨some (.fields [("name", .string shot.screen.targetName)]), shot.img.pngData⟩

theorem reference?_published (room : Int) (shot : Killshot) :
    shot.published.reference? room = some (killshotPhotoRef room shot.screen.targetName) := by
  simp [Publication.reference?, Killshot.published]

theorem moved_publishes (own : shot.screen.roomNumber = room) (killerTarget : Option Player) :
    judging.moved room (.perform shot.publishes killerTarget)
        (judging.world.perform shot.publishes killerTarget) =
      { judging with
        world := judging.world.perform shot.publishes killerTarget
        past :=
          if Option.Rel Document.Same judging.current.value shot.published.value then judging.past
          else judging.past ++ [judging.current]
        current := shot.published } := by
  have written : (judging.world.perform shot.publishes killerTarget).firestore.lookup
      (killshotRef room) = shot.published.value := by
    subst own
    exact Write.lookup_setData _ _ _
  simp only [Judging.moved, publishesIn_publishes own, if_true, written]
  rfl

theorem Judged.publishSame (judged : Judged room judging)
    (member : shot.publishes ∈ judging.world.outstanding)
    (ready : judging.world.storage.lookup (killshotPhotoRef room shot.screen.targetName) =
      shot.img.pngData) (png : shot.img.pngData = some data)
    (same : Option.Rel Document.Same judging.current.value shot.published.value)
    (killerTarget : Option Player)
    (traced : (judging.world.perform shot.publishes killerTarget).Traced) :
    Judged room { judging with
      world := judging.world.perform shot.publishes killerTarget
      current := shot.published } := by
  have named : judging.current.reference? room = shot.published.reference? room := by
    rw [Publication.reference?, string?_name_of_same same]
    rfl
  have picture : judging.current.picture = shot.img.pngData := by
    have stored := judged.stored judging.current (mem_awaited.mpr (.inl rfl)) _
      (named.trans (reference?_published room shot))
    exact stored.2.symm.trans ready
  refine ⟨traced, judged.shots_perform member killerTarget, ?_, fun id judge found => ?_⟩
  · intro publication awaited
    rcases mem_awaited.mp awaited with rfl | earlier
    · intro reference there
      cases (reference?_published room shot).symm.trans there
      exact ⟨Option.isSome_of_eq_some png, ready⟩
    · exact judged.stored publication (mem_awaited.mpr (.inr earlier))
  · have follows := judged.phones id judge found
    refine ⟨follows.own, follows.listens, follows.within, fun reference there => ?_⟩
    rcases follows.shows reference (named.trans there) with behind | loads | shown
    · exact .inl behind
    · rw [picture] at loads
      exact .inr (.inl loads)
    · exact .inr (.inr (shown.trans picture))

theorem Judged.publishNew (judged : Judged room judging)
    (member : shot.publishes ∈ judging.world.outstanding)
    (ready : judging.world.storage.lookup (killshotPhotoRef room shot.screen.targetName) =
      shot.img.pngData) (png : shot.img.pngData = some data) (killerTarget : Option Player)
    (traced : (judging.world.perform shot.publishes killerTarget).Traced) :
    Judged room { judging with
      world := judging.world.perform shot.publishes killerTarget
      past := judging.past ++ [judging.current]
      current := shot.published } := by
  refine ⟨traced, judged.shots_perform member killerTarget, ?_, fun id judge found => ?_⟩
  · intro publication awaited
    rcases mem_awaited.mp awaited with rfl | ⟨place, there, seen, member, later⟩
    · intro reference there
      cases (reference?_published room shot).symm.trans there
      exact ⟨Option.isSome_of_eq_some png, ready⟩
    · exact judged.stored publication (mem_awaited_of_values member later there)
  · have follows := judged.phones id judge found
    have longer : (judging.past ++ [judging.current]).length = judging.past.length + 1 := by simp
    refine ⟨follows.own, follows.listens, fun seen inside => ?_, fun reference there => .inl ?_⟩
    · have within := follows.within seen inside
      change seen ≤ (judging.past ++ [judging.current]).length + 1
      omega
    · rcases List.exists_mem_of_ne_nil _ follows.listens with ⟨seen, inside⟩
      exact ⟨seen, inside, longer ▸ follows.within seen inside⟩

theorem Judged.publish (judged : Judged room judging) (own : shot.screen.roomNumber = room)
    (png : shot.img.pngData = some data) (member : shot.publishes ∈ judging.world.outstanding)
    (ready : shot.publishes.Ready room judging.world.storage) (killerTarget : Option Player)
    (traced : (judging.world.perform shot.publishes killerTarget).Traced) :
    Judged room (judging.moved room (.perform shot.publishes killerTarget)
      (judging.world.perform shot.publishes killerTarget)) := by
  have stored := ready (publishesIn_publishes own)
  rw [moved_publishes own]
  split
  · rename_i same
    exact judged.publishSame member stored png same killerTarget traced
  · exact judged.publishNew member stored png killerTarget traced

end Moves

section Phones

variable {room : Int} {id : Nat} {judging : Judging} {judge : Judge}

/-- A phone that has got further, or a new one, keeps everything if it follows. -/
theorem Judged.insert (judged : Judged room judging) (follows : judge.Follows room judging)
    (further : ∀ seen ∈ judge.listeners, ∀ place, seen ≤ place → place < judging.past.length →
      ∃ earlier ∈ judging.seens, earlier ≤ place) :
    Judged room { judging with phones := judging.phones.insert id judge } := by
  have others : ∀ other found, judging.phones.lookup other = some found →
      found.Follows room { judging with phones := judging.phones.insert id judge } :=
    fun other found there => (judged.phones other found there).keeps rfl rfl
  have behind : ∀ other found, (judging.phones.insert id judge).lookup other = some found →
      ∀ seen ∈ found.listeners, ∀ place, seen ≤ place → place < judging.past.length →
        ∃ earlier ∈ judging.seens, earlier ≤ place :=
    Entries.forall_insert further fun other found there seen inside place later _ =>
      ⟨seen, mem_seens.mpr ⟨other, found, there, inside⟩, later⟩
  refine ⟨judged.traced, judged.shots, fun publication awaited => ?_,
    Entries.forall_insert (follows.keeps rfl rfl) others⟩
  refine judged.stored publication (mem_awaited.mpr ?_)
  rcases mem_awaited.mp awaited with current | ⟨place, there, seen, member, later⟩
  · exact .inl current
  · rcases mem_seens.mp member with ⟨other, found, lookup, inside⟩
    exact .inr ⟨place, there, behind other found lookup seen inside place later
      (List.getElem?_eq_some_iff.mp there).1⟩

theorem Judged.appear (judged : Judged room judging) {screen : TabBarVC}
    (own : screen.roomNumber = room) : Judged room (judging.joined id screen) := by
  unfold Judging.joined
  cases found : judging.phones.lookup id with
  | none =>
      refine judged.insert ⟨own, by simp, by simp, fun reference _ => .inl ?_⟩ ?_
      · exact ⟨judging.past.length, List.mem_singleton.mpr rfl, le_refl _⟩
      · intro seen inside place later before
        rw [List.mem_singleton.mp inside] at later
        omega
  | some judge =>
      have follows := judged.phones id judge found
      refine judged.insert ⟨follows.own, by simp, ?_, fun reference _ => .inl ?_⟩ ?_
      · intro seen inside
        rcases List.mem_append.mp inside with old | new
        · exact follows.within seen old
        · rw [List.mem_singleton.mp new]
          omega
      · exact ⟨judging.past.length, List.mem_append_right _ (List.mem_singleton.mpr rfl),
          le_refl _⟩
      · intro seen inside place later before
        rcases List.mem_append.mp inside with old | new
        · exact ⟨seen, mem_seens.mpr ⟨id, judge, found, old⟩, later⟩
        · rw [List.mem_singleton.mp new] at later
          omega

theorem Judged.deliver (judged : Judged room judging) {listener seen place : Nat}
    {publication : Publication} (found : judging.phones.lookup id = some judge)
    (listens : judge.listeners[listener]? = some seen)
    (shown : Feed.next? judging.values seen place = some publication) :
    Judged room { judging with
      phones := judging.phones.insert id { judge with
        listeners := judge.listeners.set listener (place + 1)
        downloads := judge.downloads ++
          ((listenDocument.completion judge.screen publication.value).map .asked).toList } } := by
  have follows := judged.phones id judge found
  rcases Feed.next?_eq_some.mp shown with ⟨later, there⟩
  have inside := (List.getElem?_eq_some_iff.mp listens).1
  have short : place < judging.past.length + 1 := by
    simpa [Judging.values] using (List.getElem?_eq_some_iff.mp there).1
  refine judged.insert ⟨follows.own, ?_, ?_, ?_⟩ ?_
  · exact List.ne_nil_of_mem (List.mem_of_getElem? (List.getElem?_set_self inside))
  · intro other member
    rcases List.mem_or_eq_of_mem_set member with old | rfl
    · exact follows.within other old
    · omega
  · intro reference published
    by_cases last : place = judging.past.length
    · -- the value shown is the current one
      subst last
      have same : judging.current = publication := by
        simpa [Judging.values] using there
      subst same
      have loads : listenDocument.completion judge.screen judging.current.value =
          some reference := by
        rw [listenDocument_completion, follows.own]
        exact published
      exact .inr (.inl ⟨.asked reference, List.mem_append_right _ (by simp [loads]), rfl, nofun⟩)
    · refine .inl ⟨place + 1, ?_, by omega⟩
      exact List.mem_iff_getElem?.mpr ⟨listener, List.getElem?_set_self inside⟩
  · intro other member before reached within
    rcases List.mem_or_eq_of_mem_set member with old | rfl
    · exact ⟨other, mem_seens.mpr ⟨id, judge, found, old⟩, reached⟩
    · exact ⟨seen, mem_seens.mpr ⟨id, judge, found, List.mem_of_getElem? listens⟩, by omega⟩

theorem Judged.serve (judged : Judged room judging) {place : Nat} {download served : Download}
    (found : judging.phones.lookup id = some judge)
    (loads : judge.downloads[place]? = some download)
    (serves : download.serve judging.world.storage = some served) :
    Judged room { judging with
      phones := judging.phones.insert id { judge with
        downloads := judge.downloads.set place served } } := by
  have follows := judged.phones id judge found
  refine judged.insert ⟨follows.own, follows.listens, follows.within, ?_⟩ ?_
  · intro latest published
    rcases follows.shows latest published with behind | ⟨due, member, own, brings⟩ | shown
    · exact .inl behind
    · refine .inr (.inl ?_)
      subst own
      have stored := (judged.stored _ (mem_awaited.mpr (.inl rfl)) _ published).2
      rw [← stored] at brings ⊢
      exact Download.exists_mem_served loads serves member brings
    · exact .inr (.inr shown)
  · exact fun seen inside place later _ =>
      ⟨seen, mem_seens.mpr ⟨id, judge, found, inside⟩, later⟩

theorem Judged.download (judged : Judged room judging) {place : Nat} {download : Download}
    {object : Option Data} (found : judging.phones.lookup id = some judge)
    (loads : judge.downloads[place]? = some download) (carries : download.object? = some object)
    (current : judging.Current room judge place) :
    Judged room { judging with
      phones := judging.phones.insert id { judge with
        toJudge := getData.completion judge.toJudge object
        downloads := judge.downloads.eraseIdx place } } := by
  have follows := judged.phones id judge found
  refine judged.insert ⟨follows.own, follows.listens, follows.within, ?_⟩ ?_
  · intro latest published
    rcases current with brings | behind | ⟨other, member, same, brings⟩
    · have stored := judged.stored _ (mem_awaited.mpr (.inl rfl)) latest published
      rcases Option.isSome_iff_exists.mp stored.1 with ⟨data, picture⟩
      refine .inr (.inr ?_)
      rw [brings download loads object carries, picture]
      rfl
    · exact .inl behind
    · cases same.symm.trans published
      exact .inr (.inl ⟨other, member, rfl, brings⟩)
  · exact fun seen inside place later _ =>
      ⟨seen, mem_seens.mpr ⟨id, judge, found, inside⟩, later⟩

end Phones

section Steps

variable {room : Int} {judging next : Judging}

theorem Judged.start {firestore : Firestore} {storage : Storage}
    (opens : (Judging.start room firestore storage).current.Stored room storage) :
    Judged room (Judging.start room firestore storage) := by
  refine ⟨traced_start firestore storage, fun pending member => ?_, ?_, fun id judge found => ?_⟩
  · cases member
  · intro publication awaited
    rcases mem_awaited.mp awaited with rfl | ⟨place, there, _⟩
    · exact opens
    · cases there
  · cases found

theorem Judged.act {event : AssassinGame.Event} {world : World} (judged : Judged room judging)
    (only : OnlyShots room judging (.act event)) (careful : Careful room judging (.act event))
    (stepped : judging.world.step event = some world) :
    Judged room (judging.moved room event world) := by
  have traced := judged.traced.step stepped
  rcases step_cases stepped with
    ⟨id, operation, rfl, _, rfl⟩ | ⟨pending, killerTarget, rfl, ready, rfl⟩
  · exact judged.call only traced
  · by_cases own : pending.operation.room = room
    · cases judged.shots pending ready.1 own with
      | uploads =>
          rw [moved_of_quiet rfl]
          exact judged.upload ready.1 careful.2 killerTarget traced
      | publishes png => exact judged.publish own png ready.1 careful.1 killerTarget traced
    · rw [moved_of_quiet (quiet_of_other (judged.traced.issued ready.1) own).1]
      exact judged.performOther ready.1 own killerTarget traced

theorem Judged.step {event : Judging.Event} (judged : Judged room judging)
    (only : OnlyShots room judging event) (careful : Careful room judging event)
    (stepped : judging.step room event = some next) : Judged room next := by
  cases event with
  | act event =>
      rcases Option.map_eq_some_iff.mp stepped with ⟨world, moves, rfl⟩
      exact judged.act only careful moves
  | appear id screen =>
      rw [Judging.step, Option.ite_none_right_eq_some] at stepped
      rcases stepped with ⟨listens, same⟩
      cases same
      rw [listenDocument_result, Option.some.injEq] at listens
      exact judged.appear (killshotRef_injective listens)
  | delivered id listener place =>
      rcases Option.bind_eq_some_iff.mp stepped with ⟨judge, found, rest⟩
      rcases Option.bind_eq_some_iff.mp rest with ⟨seen, listens, rest⟩
      rcases Option.bind_eq_some_iff.mp rest with ⟨publication, shown, same⟩
      cases same
      exact judged.deliver found listens shown
  | served id place =>
      rcases Option.bind_eq_some_iff.mp stepped with ⟨judge, found, rest⟩
      rcases Option.bind_eq_some_iff.mp rest with ⟨download, loads, last⟩
      rcases Option.bind_eq_some_iff.mp last with ⟨served, serves, same⟩
      cases same
      exact judged.serve found loads serves
  | downloaded id place =>
      rcases Option.bind_eq_some_iff.mp stepped with ⟨judge, found, rest⟩
      rcases Option.bind_eq_some_iff.mp rest with ⟨download, loads, last⟩
      rcases Option.bind_eq_some_iff.mp last with ⟨object, carries, same⟩
      cases same
      exact judged.download found loads carries (careful judge found)

theorem Judged.findsPicture (judged : Judged room judging) (event : Judging.Event) :
    FindsPicture judging event := by
  cases event with
  | act | appear | served | downloaded => trivial
  | delivered id listener place =>
      intro judge found seen listens publication shown reference loads
      rw [listenDocument_completion, (judged.phones id judge found).own] at loads
      have awaited := mem_awaited_of_next? found (List.mem_of_getElem? listens) shown
      exact judged.stored publication awaited reference loads

theorem Judged.shows (judged : Judged room judging) {id : Nat} {judge : Judge}
    {reference : StoragePath} (found : judging.phones.lookup id = some judge)
    (quiet : judge.Quiet judging)
    (published : judging.current.reference? room = some reference) :
    judging.current.picture.isSome = true ∧ judge.toJudge = judging.current.picture := by
  have stored := judged.stored _ (mem_awaited.mpr (.inl rfl)) reference published
  refine ⟨stored.1, ?_⟩
  rcases (judged.phones id judge found).shows reference published with
    ⟨seen, member, behind⟩ | ⟨download, member, _⟩ | shown
  · exact absurd behind (not_le.mpr (quiet.1 seen member))
  · rw [quiet.2] at member
    cases member
  · exact shown

end Steps

/-- Killshots are taken in a room. As long as names are published after their pictures, pictures
stay as long as a listener may still be shown their killshot, and what is out of date is not
downloaded last: every phone that processes a published name finds the picture of that killshot,
and a phone for which nothing is in flight shows the killshot published last. -/
theorem judges_see_published_shot {room : Int} {firestore : Firestore} {storage : Storage}
    {events : List Judging.Event} {final : Judging}
    (opens : (Judging.start room firestore storage).current.Stored room storage)
    (performed : run (Judging.step room) (Judging.start room firestore storage) events =
      some final)
    (shots : Meets (Judging.step room) (OnlyShots room) (Judging.start room firestore storage)
      events)
    (careful : Meets (Judging.step room) (Careful room) (Judging.start room firestore storage)
      events) :
    Meets (Judging.step room) FindsPicture (Judging.start room firestore storage) events ∧
      ∀ id, ∀ judge ∈ final.phones.lookup id, judge.Quiet final →
        ∀ reference ∈ final.current.reference? room,
          final.current.picture.isSome = true ∧ judge.toJudge = final.current.picture := by
  have both := shots.and careful
  have kept : ∀ judging event next, Judged room judging →
      OnlyShots room judging event ∧ Careful room judging event →
      Judging.step room judging event = some next → Judged room next :=
    fun _ _ _ judged permitted stepped => judged.step permitted.1 permitted.2 stepped
  have judged := run_invariant (Judged room) kept (Judged.start opens) both performed
  constructor
  · exact both.ensures (Judged room) kept (fun _ event _ judged _ _ => judged.findsPicture event)
      (Judged.start opens) performed
  · exact fun id judge found quiet reference published => judged.shows found quiet published

def danWatches : Judging.Event := .appear 0 ⟨7, "dan", "ann"⟩

def annTakes : Judging.Event := .act (.call annShoots.id annShoots.operation)

/-- The picture of a shot is stored before its name is published. -/
def shownInTurn : List Judging.Event := [
  danWatches, annTakes,
  .act (.perform (annShoots.uploads [1]) none), .act (.perform annShoots.publishes none),
  .delivered 0 0 1, .served 0 0, .downloaded 0 0]

theorem judges_see_published_shot_annShoots :
    ∃ final, run (Judging.step 7) (Judging.start 7 ∅ ∅) shownInTurn = some final ∧
      Meets (Judging.step 7) FindsPicture (Judging.start 7 ∅ ∅) shownInTurn ∧
      ∀ judge ∈ final.phones.lookup 0, judge.toJudge = final.current.picture := by
  have ends : (run (Judging.step 7) (Judging.start 7 ∅ ∅) shownInTurn).any (fun final =>
      final.current.reference? 7 = some (killshotPhotoRef 7 "bob") ∧
        ∀ judge ∈ final.phones.lookup 0, judge.Quiet final) = true := by decide
  rcases run_ends ends with ⟨final, performed, published, quiet⟩
  have sees := judges_see_published_shot (by decide) performed (by decide) (by decide)
  exact ⟨final, performed, sees.1, fun judge found =>
    (sees.2 0 judge found (quiet judge found) _ published).2⟩

/-- The name of a shot is published, and shown, before its picture is stored. -/
def shownEarly : List Judging.Event := [
  danWatches, annTakes,
  .act (.perform annShoots.publishes none), .delivered 0 0 1, .served 0 0, .downloaded 0 0,
  .act (.perform (annShoots.uploads [1]) none)]

def annShootsAgain : Killshot := ⟨2, ⟨7, "ann", "bob"⟩, ⟨some [3]⟩⟩

/-- A second shot, whose name is the one already published. -/
def notShown : List Judging.Event := shownInTurn ++ [
  .act (.call annShootsAgain.id annShootsAgain.operation),
  .act (.perform (annShootsAgain.uploads [3]) none),
  .act (.perform annShootsAgain.publishes none)]

/-- The pictures of two shots arrive in the other order. -/
def shownLate : List Judging.Event := [
  danWatches, annTakes, .act (.call catShoots.id catShoots.operation),
  .act (.perform (annShoots.uploads [1]) none), .act (.perform annShoots.publishes none),
  .delivered 0 0 1,
  .act (.perform (catShoots.uploads [2]) none), .act (.perform catShoots.publishes none),
  .delivered 0 0 2, .served 0 0, .served 0 1, .downloaded 0 1, .downloaded 0 0]

/-- The picture of a shot is on its way when another shot at the same target replaces it, and
arrives after the other one. -/
def servedEarly : List Judging.Event := [
  danWatches, annTakes, .act (.call catShoots.id catShoots.operation),
  .act (.perform (annShoots.uploads [1]) none), .act (.perform annShoots.publishes none),
  .delivered 0 0 1, .served 0 0,
  .act (.perform (catShoots.uploads [2]) none), .act (.perform catShoots.publishes none),
  .delivered 0 0 2, .served 0 1, .downloaded 0 1,
  .act (.call annShootsAgain.id annShootsAgain.operation),
  .act (.perform (annShootsAgain.uploads [3]) none),
  .act (.perform annShootsAgain.publishes none),
  .delivered 0 0 3, .served 0 1, .downloaded 0 1, .downloaded 0 0]

theorem judges_miss_published_shot :
    ¬Meets (Judging.step 7) FindsPicture (Judging.start 7 ∅ ∅) shownEarly ∧
    ∀ events ∈ [shownEarly, notShown, shownLate, servedEarly],
      Meets (Judging.step 7) (OnlyShots 7) (Judging.start 7 ∅ ∅) events ∧
      ∃ final, run (Judging.step 7) (Judging.start 7 ∅ ∅) events = some final ∧
        final.world.outstanding = [] ∧ ∃ judge ∈ final.phones.lookup 0, judge.Quiet final ∧
          judge.toJudge ≠ final.current.picture := by
  refine ⟨by decide, fun events member => ?_⟩
  have ends : ∀ events ∈ [shownEarly, notShown, shownLate, servedEarly],
      Meets (Judging.step 7) (OnlyShots 7) (Judging.start 7 ∅ ∅) events ∧
      (run (Judging.step 7) (Judging.start 7 ∅ ∅) events).any (fun final =>
        final.world.outstanding = [] ∧ ∃ judge ∈ final.phones.lookup 0, judge.Quiet final ∧
          judge.toJudge ≠ final.current.picture) = true := by decide
  exact ⟨(ends events member).1, run_ends (ends events member).2⟩

end AssassinGame
