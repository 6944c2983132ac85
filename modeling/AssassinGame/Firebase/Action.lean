import AssassinGame.Firebase.Firestore
import AssassinGame.Model.Player

/-! # What a function hands to Firebase

A function of the app runs to its end at once. What it leaves behind are
requests, in the order it issued them, which the stores answer later. A trap
(a forced unwrap of `nil`, a failed forced cast, a raised exception) ends the
function early and keeps the requests issued before it.
-/

namespace AssassinGame

open Segments

abbrev StoragePath := List String

/-- `StorageReference.child(path)`, which drops empty segments. -/
def StoragePath.child (reference : StoragePath) (path : String) : StoragePath :=
  reference ++ split path

abbrev Storage := AList fun _ : StoragePath => Data

/-- A `getData` under way. Its answer is the object as it was when the request was served, or an
error where there was none. -/
inductive Download
  | asked (path : StoragePath)
  | served (path : StoragePath) (object : Option Data)
  deriving DecidableEq

namespace Download

def path : Download → StoragePath
  | .asked path => path
  | .served path _ => path

def object? : Download → Option (Option Data)
  | .asked _ => none
  | .served _ object => some object

def serve (storage : Storage) : Download → Option Download
  | .asked path => some (.served path (storage.lookup path))
  | .served _ _ => none

theorem serve_eq_some {storage : Storage} {download served : Download} :
    download.serve storage = some served ↔
      download = .asked download.path ∧
        served = .served download.path (storage.lookup download.path) := by
  cases download with
  | asked path => simp [serve, Download.path, eq_comm]
  | served path object => simp [serve]

/-- The download has not been served anything else. -/
def Brings (picture : Option Data) (download : Download) : Prop :=
  ∀ object ∈ download.object?, object = picture

instance (picture : Option Data) (download : Download) : Decidable (download.Brings picture) :=
  inferInstanceAs (Decidable (∀ object ∈ download.object?, object = picture))

theorem exists_mem_served {storage : Storage} {downloads : List Download} {place : Nat}
    {download served due : Download} (found : downloads[place]? = some download)
    (serves : download.serve storage = some served) (member : due ∈ downloads)
    (brings : due.Brings (storage.lookup due.path)) :
    ∃ other ∈ downloads.set place served, other.path = due.path ∧
      other.Brings (storage.lookup due.path) := by
  rcases List.mem_iff_getElem?.mp member with ⟨position, there⟩
  by_cases same : position = place
  · subst same
    cases there.symm.trans found
    rcases serve_eq_some.mp serves with ⟨_, rfl⟩
    refine ⟨_, List.mem_set (List.getElem?_eq_some_iff.mp found).1 _, rfl, fun object carries => ?_⟩
    cases carries
    rfl
  · refine ⟨due, List.mem_of_getElem? (i := position) ?_, rfl, brings⟩
    rw [List.getElem?_set_ne (Ne.symm same)]
    exact there

end Download

/-- The completion handlers passed to `getDocument`, with what they capture. -/
inductive Completion
  | addPlayer (gameRef : ResourcePath)
  | removePlayer (gameRef : ResourcePath)
  | addKillshot (gameRef : ResourcePath) (killer : Player)
  deriving DecidableEq

inductive Request
  | write (write : Write)
  | putData (path : StoragePath) (data : Data)
  | getDocument (path : ResourcePath) (completion : Completion)
  deriving DecidableEq

/-- Of the requests of one call, which must wait for which earlier ones. -/
def Request.waitsFor : Request → Request → Bool
  | .write _, .write _ => true
  | .getDocument path _, .write earlier => decide (earlier.path = path)
  | _, _ => false

def Request.isUpload : Request → Bool
  | .putData _ _ => true
  | _ => false

/-- The requests issued by a piece of the program and the value it computed,
`none` when it trapped. -/
structure Action (α : Type) where
  requests : List Request
  result : Option α

namespace Action

instance : Monad Action where
  pure value := ⟨[], some value⟩
  bind action next :=
    match action.result with
    | none => ⟨action.requests, none⟩
    | some value => ⟨action.requests ++ (next value).requests, (next value).result⟩

def issue (request : Request) : Action Unit := ⟨[request], some ()⟩

/-- The `!` of the source. -/
def unwrap (value : Option α) : Action α := ⟨[], value⟩

/-- `CollectionReference.document(text)`. -/
def document (collection : ResourcePath) (text : String) : Action ResourcePath :=
  unwrap (document? collection text)

@[simp] theorem pure_requests (value : α) : (pure value : Action α).requests = [] := rfl

@[simp] theorem pure_result (value : α) : (pure value : Action α).result = some value := rfl

@[simp] theorem issue_requests (request : Request) :
    (issue request).requests = [request] := rfl

@[simp] theorem issue_result (request : Request) : (issue request).result = some () := rfl

@[simp] theorem unwrap_requests (value : Option α) : (unwrap value).requests = [] := rfl

@[simp] theorem unwrap_result (value : Option α) : (unwrap value).result = value := rfl

theorem unwrap_some_bind (value : α) (next : α → Action β) :
    unwrap (some value) >>= next = next value := rfl

theorem bind_requests (action : Action α) (next : α → Action β) :
    (action >>= next).requests =
      action.requests ++ (match action.result with
        | some value => (next value).requests
        | none => []) := by
  change (match action.result with
    | none => (⟨action.requests, none⟩ : Action β)
    | some value => ⟨action.requests ++ (next value).requests, (next value).result⟩).requests = _
  split <;> rename_i result <;> simp [result]

theorem bind_result (action : Action α) (next : α → Action β) :
    (action >>= next).result = action.result.bind fun value => (next value).result := by
  change (match action.result with
    | none => (⟨action.requests, none⟩ : Action β)
    | some value => ⟨action.requests ++ (next value).requests, (next value).result⟩).result = _
  split <;> rename_i result <;> simp [result]

end Action

end AssassinGame
