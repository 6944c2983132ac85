import AssassinGame.Rooms.Counter

/-! # The players of a room

The registered players are the documents directly in the players subcollection.
A name need not name such a document: a text with separators inside lands deeper,
and different texts can land on the same document.
-/

namespace AssassinGame

open AssassinGame.Action Transition Segments World

/-- The identifier of the document that a player's name names directly in the
players subcollection. -/
def playerID? (room : Int) (player : Player) : Option String :=
  (document? (players room) player.name).bind (documentID? (players room))

theorem playerID?_eq_some {room : Int} {player : Player} {id : String} :
    playerID? room player = some id ↔
      document? (players room) player.name = some (players room ++ [id]) := by
  simp only [playerID?, Option.bind_eq_some_iff, documentID?_eq_some]
  constructor
  · rintro ⟨path, named, rfl⟩
    exact named
  · intro named
    exact ⟨_, named, rfl⟩

theorem document?_player {room : Int} {player : Player} (plain : Plain player.name) :
    document? (players room) player.name = some (players room ++ [player.name]) :=
  document?_plain plain (by simp)

theorem playerID?_of_plain {room : Int} {player : Player} (plain : Plain player.name) :
    playerID? room player = some player.name :=
  playerID?_eq_some.mpr (document?_player plain)

theorem name_ne_empty {room : Int} {name : String}
    (named : (document? (players room) name).isSome) : name ≠ "" := by
  rintro rfl
  exact absurd named (by simp [document?, split, hasEmptyMiddle])

def population (room : Int) (store : Firestore) : Nat :=
  (store.getDocuments (players room)).length

namespace Operation

def adds (room : Int) (id : String) (operation : Operation) : Bool :=
  decide (operation.room = room ∧ operation.registered.bind (playerID? room) = some id)

def removes (room : Int) (id : String) (operation : Operation) : Bool :=
  decide (operation.room = room ∧ operation.removed.bind (playerID? room) = some id)

end Operation

namespace Request

def registers (room : Int) (id : String) : Request → Bool
  | .write (.setData path _) => decide (path = players room ++ [id])
  | _ => false

def deletes (room : Int) (id : String) : Request → Bool
  | .write (.delete path) => decide (path = players room ++ [id])
  | _ => false

theorem registers_eq_true {request : Request} {room : Int} {id : String} :
    request.registers room id = true ↔
      ∃ data, request = .write (.setData (players room ++ [id]) data) := by
  unfold registers
  split <;> simp_all

theorem deletes_eq_true {request : Request} {room : Int} {id : String} :
    request.deletes room id = true ↔ request = .write (.delete (players room ++ [id])) := by
  unfold deletes
  split <;> simp_all

end Request

/-! ## Which requests concern player documents -/

/-- Paths that coincide below two subcollections lie in one room and in one
subcollection. -/
theorem subcollection_unique {left right : Int} {collection other : String}
    {first second : List String}
    (equal : gameRef left ++ [collection] ++ first = gameRef right ++ [other] ++ second) :
    left = right ∧ collection = other := by
  simp only [gameRef, games, List.cons_append, List.nil_append, List.cons.injEq,
    true_and] at equal
  exact ⟨decimal_injective equal.1, equal.2.1⟩

theorem gameRef_ne_player (left room : Int) (id : String) :
    gameRef left ≠ players room ++ [id] :=
  (below_ne_game room "players" (decimal left) [id]).symm

theorem killshotRef_ne_player (left room : Int) (id : String) :
    TabBarVC.killshotRef left ≠ players room ++ [id] :=
  (below_ne_game room "players" (decimal left ++ "ks") [id]).symm

theorem Asked.adds_of_registers {operation : Operation} {request : Request}
    (asked : Asked operation request) {room : Int} {id : String}
    (registers : request.registers room id = true) : operation.adds room id = true := by
  cases asked with
  | opens => exact absurd (of_decide_eq_true registers) (gameRef_ne_player _ _ _)
  | registers registered named =>
      have landed := of_decide_eq_true registers
      have own := (subcollection_unique ((document?_eq_some named).symm.trans landed)).1
      subst own landed
      simp [Operation.adds, registered, playerID?_eq_some, named]
  | phones device =>
      have landed := subcollection_unique (of_decide_eq_true registers)
      exact absurd landed.2 (by decide)
  | publishes => exact absurd (of_decide_eq_true registers) (killshotRef_ne_player _ _ _)
  | removes | reads | uploads => cases registers

theorem Asked.removes_of_deletes {operation : Operation} {request : Request}
    (asked : Asked operation request) {room : Int} {id : String}
    (deletes : request.deletes room id = true) : operation.removes room id = true := by
  cases asked with
  | removes removed named =>
      have landed := of_decide_eq_true deletes
      have own := (subcollection_unique ((document?_eq_some named).symm.trans landed)).1
      subst own landed
      simp [Operation.removes, removed, playerID?_eq_some, named]
  | opens | registers | phones | publishes | reads | uploads => cases deletes

theorem Answered.not_registers {operation : Operation} {request : Request}
    (answered : Answered operation request) (room : Int) (id : String) :
    request.registers room id = false := by
  cases answered with
  | counts => rfl
  | files data _ named =>
      refine decide_eq_false fun landed => ?_
      exact absurd (subcollection_unique ((document?_eq_some named).symm.trans landed)).2
        (by decide)

theorem Answered.not_deletes {operation : Operation} {request : Request}
    (answered : Answered operation request) (room : Int) (id : String) :
    request.deletes room id = false := by
  cases answered <;> rfl

/-! ## What one request does to the players -/

theorem mem_applyTo (pending : Pending) (room : Int) (id : String) (store : Firestore) :
    players room ++ [id] ∈ pending.applyTo store ↔
      pending.request.registers room id = true ∨
        (pending.request.deletes room id = false ∧ players room ++ [id] ∈ store) := by
  rcases pending with ⟨call, operation, request⟩
  cases request with
  | write write =>
      cases write with
      | setData path data =>
          simp [Pending.applyTo, Write.apply, Request.registers, Request.deletes,
            AList.mem_insert, eq_comm]
      | updateData path data =>
          simp [Pending.applyTo, Write.mem_updateData, Request.registers, Request.deletes]
      | delete path =>
          simp [Pending.applyTo, Write.apply, Request.registers, Request.deletes,
            AList.mem_erase, eq_comm]
  | putData | getDocument => simp [Pending.applyTo, Request.registers, Request.deletes]

section Population

variable {pending : Pending} {room : Int} {store : Firestore}

theorem population_of_registers {id : String}
    (registers : pending.request.registers room id = true)
    (fresh : players room ++ [id] ∉ store) :
    population room (pending.applyTo store) = population room store + 1 := by
  apply Firestore.length_getDocuments_succ fresh
  intro other
  rcases Request.registers_eq_true.mp registers with ⟨data, shape⟩
  rw [mem_applyTo, shape]
  simp [Request.registers, Request.deletes, eq_comm]

theorem population_of_deletes {id : String}
    (deletes : pending.request.deletes room id = true)
    (present : players room ++ [id] ∈ store) :
    population room (pending.applyTo store) + 1 = population room store := by
  have shape := Request.deletes_eq_true.mp deletes
  refine (@Firestore.length_getDocuments_succ _ _ _ id ?_ ?_).symm
  · rw [mem_applyTo, shape]
    simp [Request.registers, Request.deletes]
  · intro other
    rw [mem_applyTo, shape]
    by_cases same : other = id
    · simp [same, present]
    · simp [Request.registers, Request.deletes, same, Ne.symm same]

theorem population_of_rewritten {id : String}
    (registers : pending.request.registers room id = true)
    (present : players room ++ [id] ∈ store) :
    population room (pending.applyTo store) = population room store := by
  apply Firestore.length_getDocuments_congr
  intro other
  rcases Request.registers_eq_true.mp registers with ⟨data, shape⟩
  rw [mem_applyTo, shape]
  by_cases same : id = other
  · subst same
    simp [Request.registers, present]
  · simp [Request.registers, Request.deletes, same]

theorem population_of_missing {id : String}
    (deletes : pending.request.deletes room id = true)
    (missing : players room ++ [id] ∉ store) :
    population room (pending.applyTo store) = population room store := by
  apply Firestore.length_getDocuments_congr
  intro other
  rw [mem_applyTo, Request.deletes_eq_true.mp deletes]
  by_cases same : id = other
  · subst same
    simp [Request.registers, Request.deletes, missing]
  · simp [Request.registers, Request.deletes, same]

theorem population_of_other
    (keeps : ∀ id, pending.request.registers room id = false ∧
      pending.request.deletes room id = false) :
    population room (pending.applyTo store) = population room store := by
  apply Firestore.length_getDocuments_congr
  intro id
  rw [mem_applyTo]
  simp [keeps id]

end Population

end AssassinGame
