import AssassinGame.Foundation.Text
import AssassinGame.Model.DatabaseController

/-! # The game screen: the target card and the camera -/

namespace AssassinGame

open AssassinGame.Action Segments

/-- The screen. The only segue that leads to it sets the room and the name. -/
structure TabBarVC where
  roomNumber : Int
  name : String
  /-- The text of the `targetName` label. -/
  targetName : String
  deriving DecidableEq

namespace TabBarVC

/-- The text the storyboard puts into the `targetName` label. -/
def placeholder : String := "DIVI SCHMIDT"

/-- The identifiers a query returned, without the player's own name. -/
def potentialTargets [Canonical] (name : String) (documents : List String) : List String :=
  documents.foldl (fun targets documentID =>
    if ¬SameText documentID name then targets ++ [documentID] else targets) []

/-- The label after the loop that writes every target into it. -/
def showTargets [Canonical] (name label : String) (targets : List String) : String :=
  targets.foldl (fun label target => if ¬SameText target name then target else label) label

/-- The handler of the query of `assignTarget()`: the new label, and the photo
whose download is started. -/
def assignTarget.completion [Canonical] (self : TabBarVC) (shuffle : Shuffle String)
    (documents : List String) : TabBarVC × StoragePath :=
  let targets := shuffle (potentialTargets self.name documents)
  let self := { self with targetName := showTargets self.name self.targetName targets }
  (self, storageRef.child (decimal self.roomNumber ++ "/" ++ self.targetName ++ ".png"))

/-- The handler of a download: what the image view shows after it, where `none` is an error,
which is only printed. A picture is known by the data it is made from. -/
def getData.completion (image : Option Data) : Option Data → Option Data
  | some data => some data
  | none => image

def uploadKillshotPic (self : TabBarVC) (image : UIImage) : Action Unit := do
  let pngData := image.pngData
  let roomRef := storageRef.child (decimal self.roomNumber ++ "ks")
  let fileName := self.targetName ++ ".png"
  let photoRef := roomRef.child fileName
  issue <| .putData photoRef (← unwrap pngData)

/-- The parameter is not read: the label is. -/
def uploadKillshotName (self : TabBarVC) (_name : String) : Action Unit := do
  let killshotRef ← document games (decimal self.roomNumber ++ "ks")
  issue <| .write <| .setData killshotRef <| .fields [("name", .string self.targetName)]

def imagePickerController (self : TabBarVC) (img : UIImage) : Action Unit := do
  self.uploadKillshotPic img
  self.uploadKillshotName self.targetName

/-- `listenDocument()`: the document the listener is opened on. -/
def listenDocument (self : TabBarVC) : Action ResourcePath :=
  document games (decimal self.roomNumber ++ "ks")

/-- The listener: the picture whose download is started, if the document has a name. Only
`uploadKillshotName` writes that field, and writes a text. -/
def listenDocument.completion (self : TabBarVC) : Option Document → Option StoragePath
  | some data => (data.string? "name").map fun name =>
      storageRef.child (decimal self.roomNumber ++ "ks/" ++ name ++ ".png")
  | none => none

/-- `saveImage(_:)` of a screen with this `game`, `player` and `userLocation`. The location
that it asks for arrives later. -/
def saveImage (game : Option Game) (player : Option PlayerRef) (heap : Heap)
    (userLocation : CLLocation) (img : UIImage) : Action Unit := do
  let roomNumber := (← unwrap game).roomNumber
  let killer ← unwrap (heap.target (← unwrap player))
  addKillshot roomNumber (heap.player killer) ((heap.target killer).map heap.player) img
    userLocation

/-! ## What the loops compute -/

section Targets

variable [Canonical]

theorem potentialTargets_eq (name : String) (documents : List String) :
    potentialTargets name documents =
      documents.filter fun documentID => ¬SameText documentID name := by
  have general : ∀ targets : List String,
      documents.foldl (fun targets documentID =>
        if ¬SameText documentID name then targets ++ [documentID] else targets) targets =
        targets ++ documents.filter fun documentID => ¬SameText documentID name := by
    induction documents with
    | nil => simp
    | cons documentID documents induction =>
        intro targets
        rw [List.foldl_cons, induction]
        by_cases own : SameText documentID name <;> simp [own]
  exact general []

theorem mem_potentialTargets {name documentID : String} {documents : List String} :
    documentID ∈ potentialTargets name documents ↔
      documentID ∈ documents ∧ ¬SameText documentID name := by
  simp [potentialTargets_eq]

theorem showTargets_concat {name target : String} (other : ¬SameText target name)
    (label : String) (targets : List String) :
    showTargets name label (targets ++ [target]) = target := by
  simp [showTargets, other]

/-- The label shows the last of the shuffled candidates, or the old text when there are
none. -/
theorem completion_targetName (self : TabBarVC) (shuffle : Shuffle String)
    (documents : List String) :
    (assignTarget.completion self shuffle documents).1.targetName =
      ((shuffle (potentialTargets self.name documents)).getLast?).getD self.targetName := by
  simp only [assignTarget.completion]
  rcases List.eq_nil_or_concat (shuffle (potentialTargets self.name documents)) with
    empty | ⟨front, last, shape⟩
  · rw [empty]
    rfl
  · have member : last ∈ potentialTargets self.name documents := by
      rw [← shuffle.mem_iff, shape]
      simp
    have other := (mem_potentialTargets.mp member).2
    rw [shape, List.concat_eq_append, showTargets_concat other, List.getLast?_concat]
    rfl

theorem completion_mem (self : TabBarVC) (shuffle : Shuffle String)
    {documents : List String} (some' : potentialTargets self.name documents ≠ []) :
    (assignTarget.completion self shuffle documents).1.targetName ∈
      potentialTargets self.name documents := by
  rw [completion_targetName]
  have nonempty : shuffle (potentialTargets self.name documents) ≠ [] := fun empty =>
    some' (empty ▸ shuffle.perm (potentialTargets self.name documents)).symm.eq_nil
  rw [List.getLast?_eq_getLast_of_ne_nil nonempty, Option.getD_some]
  exact shuffle.mem_iff.mp (List.getLast_mem nonempty)

theorem completion_selects (self : TabBarVC) (shuffle : Shuffle String)
    {documents : List String} {documentID : String} (listed : documentID ∈ documents)
    (other : ¬SameText documentID self.name) :
    (assignTarget.completion self shuffle documents).1.targetName ∈ documents ∧
      ¬SameText (assignTarget.completion self shuffle documents).1.targetName self.name := by
  have candidate : documentID ∈ potentialTargets self.name documents :=
    mem_potentialTargets.mpr ⟨listed, other⟩
  exact mem_potentialTargets.mp (completion_mem self shuffle (List.ne_nil_of_mem candidate))

theorem completion_of_own (self : TabBarVC) (shuffle : Shuffle String) {documents : List String}
    (own : ∀ documentID ∈ documents, SameText documentID self.name) :
    (assignTarget.completion self shuffle documents).1.targetName = self.targetName := by
  have none' : potentialTargets self.name documents = [] := by
    rw [List.eq_nil_iff_forall_not_mem]
    intro documentID candidate
    rcases mem_potentialTargets.mp candidate with ⟨listed, other⟩
    exact other (own documentID listed)
  rw [completion_targetName, none', (shuffle.perm []).eq_nil]
  rfl

/-- The label is left alone, whatever it shows, exactly if the list holds nothing but the own
name. -/
theorem completion_unchanged_iff (self : TabBarVC) (shuffle : Shuffle String)
    (documents : List String) :
    (∀ label, (assignTarget.completion { self with targetName := label } shuffle
        documents).1.targetName = label) ↔
      ∀ documentID ∈ documents, SameText documentID self.name := by
  constructor
  · intro unchanged documentID listed
    by_contra other
    -- a label that is no candidate does not survive
    have shown := completion_selects { self with targetName := self.name } shuffle listed other
    rw [unchanged] at shown
    exact shown.2 (.refl _)
  · intro own label
    exact completion_of_own { self with targetName := label } shuffle own

/-- Every candidate is the label for some outcome of the shuffle. -/
theorem exists_completion_targetName (self : TabBarVC) {documents : List String}
    {target : String} (member : target ∈ potentialTargets self.name documents) :
    ∃ shuffle : Shuffle String,
      (assignTarget.completion self shuffle documents).1.targetName = target := by
  rcases Shuffle.exists_last member with ⟨shuffle, front, shape⟩
  refine ⟨shuffle, ?_⟩
  rw [completion_targetName, shape, List.getLast?_concat]
  rfl

theorem completion_photoRef (self : TabBarVC) (shuffle : Shuffle String)
    (documents : List String) :
    (assignTarget.completion self shuffle documents).2 =
      photoRef self.roomNumber
        (assignTarget.completion self shuffle documents).1.targetName := by
  simp only [assignTarget.completion, photoRef, StoragePath.child]
  rw [String.append_assoc, split_append_slash]
  rfl

end Targets

/-! ## What the camera's handler issues -/

theorem plain_killshotID (roomNumber : Int) :
    Plain (decimal roomNumber ++ "ks") :=
  (Segments.plain_decimal roomNumber).append (by decide)

def killshotRef (roomNumber : Int) : ResourcePath := games ++ [decimal roomNumber ++ "ks"]

def killshotPhotoRef (roomNumber : Int) (targetName : String) : StoragePath :=
  (storageRef.child (decimal roomNumber ++ "ks")).child (targetName ++ ".png")

theorem listenDocument_result (self : TabBarVC) :
    self.listenDocument.result = some (killshotRef self.roomNumber) := by
  simp [listenDocument, Action.document, killshotRef, document?_plain (plain_killshotID _)
    (show games.length % 2 = 1 by rfl)]

theorem listenDocument_completion (self : TabBarVC) (snapshot : Option Document) :
    listenDocument.completion self snapshot =
      (snapshot.bind (·.string? "name")).map (killshotPhotoRef self.roomNumber) := by
  cases snapshot with
  | none => rfl
  | some data =>
      rw [listenDocument.completion, Option.bind_some]
      congr 1
      funext name
      rw [killshotPhotoRef, StoragePath.child, StoragePath.child, StoragePath.child,
        List.append_assoc, ← split_append_slash]
      congr 2
      simp [String.append_assoc]

theorem uploadKillshotPic_requests {self : TabBarVC} {image : UIImage} {data : Data}
    (png : image.pngData = some data) :
    (self.uploadKillshotPic image).requests =
      [.putData (killshotPhotoRef self.roomNumber self.targetName) data] := by
  simp [uploadKillshotPic, bind_requests, png, killshotPhotoRef]

theorem uploadKillshotName_requests (self : TabBarVC) (name : String) :
    (self.uploadKillshotName name).requests =
      [.write (.setData (killshotRef self.roomNumber)
        (.fields [("name", .string self.targetName)]))] := by
  have named := document?_plain (plain_killshotID self.roomNumber)
    (show games.length % 2 = 1 by rfl)
  simp [uploadKillshotName, bind_requests, Action.document, named, killshotRef]

theorem imagePickerController_requests {self : TabBarVC} {img : UIImage} {data : Data}
    (png : img.pngData = some data) :
    (self.imagePickerController img).requests = [
      .putData (killshotPhotoRef self.roomNumber self.targetName) data,
      .write (.setData (killshotRef self.roomNumber)
        (.fields [("name", .string self.targetName)]))] := by
  have uploaded : (self.uploadKillshotPic img).result = some () := by
    simp [uploadKillshotPic, bind_result, png]
  simp [imagePickerController, bind_requests, uploadKillshotPic_requests png, uploaded,
    uploadKillshotName_requests]

end TabBarVC

end AssassinGame
