import AssassinGame.Foundation.Segments
import Mathlib.Data.List.AList
import Mathlib.Data.List.Nodup
import Mathlib.Data.List.Sort

/-! # The document store

Documents are kept under paths of segments: a collection path has odd length
and the documents of a collection lie one segment below it.
-/

namespace AssassinGame

open Segments

abbrev ResourcePath := List String

/-- `CollectionReference.document(text)`. The text is a path of its own, cut at
`/`; `none` is the exception raised for an empty middle segment or for a path
that does not name a document. -/
def document? (collection : ResourcePath) (text : String) : Option ResourcePath :=
  if hasEmptyMiddle text then none
  else if (collection ++ split text).length % 2 = 0 then some (collection ++ split text)
  else none

theorem document?_plain {collection : ResourcePath} {text : String} (plain : Plain text)
    (odd : collection.length % 2 = 1) :
    document? collection text = some (collection ++ [text]) := by
  have even : (collection.length + 1) % 2 = 0 := by omega
  simp [document?, plain.no_empty_middle, plain.split, even]

theorem document?_eq_some {collection path : ResourcePath} {text : String}
    (named : document? collection text = some path) : path = collection ++ split text := by
  unfold document? at named
  split at named
  · cases named
  · split at named
    · exact (Option.some.inj named).symm
    · cases named

/-! ## Documents -/

inductive Value
  | int (value : Int)
  | double (value : Rat)
  | string (text : String)
  deriving DecidableEq, Repr

/-- The fields of a document: what a `[String: Any]` dictionary literal holds. -/
abbrev Document := AList fun _ : String => Value

-- the general instance for `AList` is a rewrite, which does not evaluate
instance : DecidableEq Document := fun left right =>
  decidable_of_iff (left.entries = right.entries) AList.ext_iff.symm

namespace Document

def fields (entries : List (String × Value)) : Document :=
  (entries.map fun entry => (⟨entry.1, entry.2⟩ : Sigma fun _ : String => Value)).toAList

/-- `data()[field] as! Int`, where `none` is the failed cast. -/
def int? (document : Document) (field : String) : Option Int :=
  match document.lookup field with
  | some (.int value) => some value
  | _ => none

def string? (document : Document) (field : String) : Option String :=
  match document.lookup field with
  | some (.string text) => some text
  | _ => none

theorem lookup_fields (entries : List (String × Value)) (field : String) :
    (fields entries).lookup field =
      (entries.map fun entry =>
        (⟨entry.1, entry.2⟩ : Sigma fun _ : String => Value)).dlookup field := by
  simp [fields, AList.lookup_to_alist]

theorem int?_eq_some {document : Document} {field : String} {value : Int} :
    document.int? field = some value ↔ document.lookup field = some (.int value) := by
  unfold int?
  split
  · rename_i found
    simp [found]
  · rename_i other
    exact iff_of_false nofun (other value)

@[simp] theorem int?_fields_head (field : String) (value : Int)
    (entries : List (String × Value)) :
    (fields ((field, .int value) :: entries)).int? field = some value := by
  simp [int?, lookup_fields]

@[simp] theorem string?_fields_head (field : String) (text : String)
    (entries : List (String × Value)) :
    (fields ((field, .string text) :: entries)).string? field = some text := by
  simp [string?, lookup_fields]

@[simp] theorem lookup_fields_head (field : String) (value : Value)
    (entries : List (String × Value)) :
    (fields ((field, value) :: entries)).lookup field = some value := by
  simp [lookup_fields]

theorem lookup_fields_tail {field other : String} (different : field ≠ other) (value : Value)
    (entries : List (String × Value)) :
    (fields ((other, value) :: entries)).lookup field = (fields entries).lookup field := by
  rw [lookup_fields, lookup_fields]
  exact List.dlookup_cons_ne _ (⟨other, value⟩ : Sigma fun _ : String => Value) different

theorem int?_fields_tail {field other : String} (different : field ≠ other) (value : Value)
    (entries : List (String × Value)) :
    (fields ((other, value) :: entries)).int? field = (fields entries).int? field := by
  rw [int?, int?, lookup_fields_tail different]

/-- The merge done by `updateData`: the new fields win. -/
def merge (updates document : Document) : Document := updates ∪ document

theorem lookup_merge_of_mem {updates document : Document} {field : String}
    (member : field ∈ updates) :
    (merge updates document).lookup field = updates.lookup field :=
  AList.lookup_union_left member

theorem lookup_merge_of_not_mem {updates document : Document} {field : String}
    (notMember : field ∉ updates) :
    (merge updates document).lookup field = document.lookup field :=
  AList.lookup_union_right notMember

theorem mem_fields_single {field other : String} {value : Value} :
    field ∈ fields [(other, value)] ↔ field = other := by
  rw [← AList.lookup_isSome, lookup_fields]
  by_cases equal : field = other
  · subst equal
    simp
  · simp [equal, List.dlookup_cons_ne [] (⟨other, value⟩ : Sigma fun _ => Value) equal]

@[simp] theorem int?_merge_single (field : String) (value : Int) (document : Document) :
    (merge (fields [(field, .int value)]) document).int? field = some value := by
  rw [int?, lookup_merge_of_mem (mem_fields_single.mpr rfl)]
  exact int?_fields_head field value []

theorem int?_merge_single_of_ne {field other : String} (different : field ≠ other)
    (value : Value) (document : Document) :
    (merge (fields [(other, value)]) document).int? field = document.int? field := by
  rw [int?, lookup_merge_of_not_mem fun member => different (mem_fields_single.mp member)]
  rfl

/-- The same fields, in whichever order. -/
def Same (left right : Document) : Prop :=
  ∀ field, left.lookup field = right.lookup field

theorem same_iff_perm {left right : Document} :
    left.Same right ↔ left.entries.Perm right.entries := by
  constructor
  · intro same
    refine List.lookup_ext left.nodupKeys right.nodupKeys fun field value => ?_
    exact Eq.to_iff (congrArg (value ∈ ·) (same field))
  · intro perm field
    exact List.perm_dlookup field left.nodupKeys perm

instance (left right : Document) : Decidable (left.Same right) :=
  decidable_of_iff _ same_iff_perm.symm

instance : ∀ left right : Option Document, Decidable (Option.Rel Same left right)
  | none, none => isTrue .none
  | some _, none => isFalse nofun
  | none, some _ => isFalse nofun
  | some left, some right => decidable_of_iff (left.Same right) ⟨.some, fun | .some same => same⟩

theorem same_merge_single {document : Document} {field : String} {value : Value}
    (there : document.lookup field = some value) :
    document.Same (merge (fields [(field, value)]) document) := by
  intro other
  by_cases own : other = field
  · subst own
    rw [lookup_merge_of_mem (mem_fields_single.mpr rfl), lookup_fields_head, there]
  · rw [lookup_merge_of_not_mem fun member => own (mem_fields_single.mp member)]

theorem Same.refl (found : Option Document) : Option.Rel Same found found := by
  cases found with
  | none => exact .none
  | some document => exact .some fun _ => rfl

end Document

/-! ## The store -/

abbrev Firestore := AList fun _ : ResourcePath => Document

/-- `documentID` of the documents that lie directly in `collection`. -/
def documentID? (collection path : ResourcePath) : Option String :=
  if path.dropLast = collection then path.getLast? else none

theorem documentID?_eq_some {collection path : ResourcePath} {id : String} :
    documentID? collection path = some id ↔ path = collection ++ [id] := by
  constructor
  · intro found
    unfold documentID? at found
    split at found
    · rename_i parent
      rcases List.getLast?_eq_some_iff.mp found with ⟨front, rfl⟩
      simpa using parent
    · cases found
  · rintro rfl
    simp [documentID?]

namespace Firestore

/-- `getDocuments()` on a collection. Without `order(by:)` the identifiers ascend. -/
def getDocuments (store : Firestore) (collection : ResourcePath) : List String :=
  (store.keys.filterMap (documentID? collection)).insertionSort (· ≤ ·)

theorem mem_getDocuments {store : Firestore} {collection : ResourcePath} {id : String} :
    id ∈ store.getDocuments collection ↔ collection ++ [id] ∈ store := by
  simp only [getDocuments, List.mem_insertionSort, List.mem_filterMap, documentID?_eq_some]
  constructor
  · rintro ⟨path, member, rfl⟩
    exact AList.mem_keys.mpr member
  · intro member
    exact ⟨_, AList.mem_keys.mp member, rfl⟩

theorem nodup_getDocuments (store : Firestore) (collection : ResourcePath) :
    (store.getDocuments collection).Nodup := by
  apply (List.perm_insertionSort _ _).nodup_iff.mpr
  apply store.keys_nodup.filterMap
  intro left right id leftFound rightFound
  rw [documentID?_eq_some.mp leftFound, documentID?_eq_some.mp rightFound]

end Firestore

inductive Write
  | setData (path : ResourcePath) (data : Document)
  | updateData (path : ResourcePath) (data : Document)
  | delete (path : ResourcePath)
  deriving DecidableEq

namespace Write

def path : Write → ResourcePath
  | .setData path _ => path
  | .updateData path _ => path
  | .delete path => path

/-- Apply a write to the store. An update of a missing document is rejected. -/
def apply : Write → Firestore → Firestore
  | .setData path data, store => store.insert path data
  | .updateData path data, store =>
      match store.lookup path with
      | some document => store.insert path (Document.merge data document)
      | none => store
  | .delete path, store => store.erase path

theorem lookup_apply_of_ne {write : Write} {path : ResourcePath}
    (different : path ≠ write.path) (store : Firestore) :
    (write.apply store).lookup path = store.lookup path := by
  cases write with
  | setData target data => exact AList.lookup_insert_ne different
  | updateData target data =>
      simp only [apply]
      split
      · exact AList.lookup_insert_ne different
      · rfl
  | delete target => exact AList.lookup_erase_ne different

theorem lookup_setData (path : ResourcePath) (data : Document) (store : Firestore) :
    ((Write.setData path data).apply store).lookup path = some data :=
  AList.lookup_insert store

theorem lookup_updateData (path : ResourcePath) (data : Document) (store : Firestore) :
    ((Write.updateData path data).apply store).lookup path =
      (store.lookup path).map (Document.merge data) := by
  simp only [apply]
  split
  · rename_i document found
    simp [found]
  · rename_i missing
    simp [missing]

theorem lookup_apply_congr (write : Write) {path : ResourcePath}
    {left right : Firestore} (same : left.lookup path = right.lookup path) :
    (write.apply left).lookup path = (write.apply right).lookup path := by
  by_cases own : path = write.path
  · subst own
    cases write with
    | setData path data =>
        exact (lookup_setData _ _ _).trans (lookup_setData _ _ _).symm
    | updateData path data =>
        exact (lookup_updateData _ _ _).trans
          ((congrArg _ same).trans (lookup_updateData _ _ _).symm)
    | delete path => simp [apply, Write.path]
  · rw [lookup_apply_of_ne own, lookup_apply_of_ne own, same]

theorem mem_updateData {path target : ResourcePath} {data : Document} {store : Firestore} :
    path ∈ (Write.updateData target data).apply store ↔ path ∈ store := by
  simp only [apply]
  split
  · rename_i document found
    rw [AList.mem_insert]
    constructor
    · rintro (rfl | member)
      · exact AList.lookup_isSome.mp (by simp [found])
      · exact member
    · exact .inr
  · rfl

end Write

namespace Firestore

theorem length_getDocuments_congr {left right : Firestore} {collection : ResourcePath}
    (same : ∀ id, collection ++ [id] ∈ left ↔ collection ++ [id] ∈ right) :
    (left.getDocuments collection).length = (right.getDocuments collection).length := by
  apply List.Perm.length_eq
  rw [List.perm_ext_iff_of_nodup (left.nodup_getDocuments _) (right.nodup_getDocuments _)]
  intro id
  simp only [mem_getDocuments, same]

theorem length_getDocuments_succ {smaller larger : Firestore} {collection : ResourcePath}
    {added : String} (fresh : collection ++ [added] ∉ smaller)
    (grown : ∀ id, collection ++ [id] ∈ larger ↔ id = added ∨ collection ++ [id] ∈ smaller) :
    (larger.getDocuments collection).length =
      (smaller.getDocuments collection).length + 1 := by
  have nodup : (added :: smaller.getDocuments collection).Nodup :=
    List.nodup_cons.mpr ⟨fun member => fresh (mem_getDocuments.mp member),
      smaller.nodup_getDocuments _⟩
  have perm : (larger.getDocuments collection).Perm
      (added :: smaller.getDocuments collection) := by
    rw [List.perm_ext_iff_of_nodup (larger.nodup_getDocuments _) nodup]
    intro id
    simp only [List.mem_cons, mem_getDocuments, grown]
  simpa using perm.length_eq

end Firestore

end AssassinGame
