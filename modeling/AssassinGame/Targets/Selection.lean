import AssassinGame.Rooms.Accounting
import AssassinGame.Rooms.Attempts

/-! # Drawing a target by its name

`assignTarget()` knows the players by the identifiers that the players query returns,
and asks for their photos under these. `addPlayer` goes by the names that the players
have typed. A name and an identifier are the same exactly for names without
separators.
-/

namespace AssassinGame

open AssassinGame.Action Transition Segments World

/-! ## What the loops can select -/

/-- The label shows an identifier of the list that is not the own name, and is left alone,
whatever it shows, exactly if there is none. Each of them is shown for some outcome of the
shuffle. -/
theorem TabBarVC.assignTarget_selects [Canonical] (self : TabBarVC) (documents : List String) :
    (∀ shuffle : Shuffle String,
      ((∃ documentID ∈ documents, ¬SameText documentID self.name) →
        (assignTarget.completion self shuffle documents).1.targetName ∈ documents ∧
          ¬SameText (assignTarget.completion self shuffle documents).1.targetName self.name) ∧
      ((∀ label, (assignTarget.completion { self with targetName := label } shuffle
          documents).1.targetName = label) ↔
        ∀ documentID ∈ documents, SameText documentID self.name)) ∧
    ∀ documentID ∈ documents, ¬SameText documentID self.name → ∃ shuffle : Shuffle String,
      (assignTarget.completion self shuffle documents).1.targetName = documentID := by
  constructor
  · intro shuffle
    constructor
    · intro ⟨documentID, listed, other⟩
      exact completion_selects self shuffle listed other
    · exact completion_unchanged_iff self shuffle documents
  · intro documentID listed other
    exact exists_completion_targetName self (mem_potentialTargets.mpr ⟨listed, other⟩)

/-! ## Names that are read back -/

/-- A client of this name can draw the player wherever the query returns it. -/
def DrawnBy [Canonical] (room : Int) (player : Player) (name : String) : Prop :=
  ∀ documents, ∀ documentID ∈ playerID? room player, documentID ∈ documents →
    ∀ screen : TabBarVC, screen.name = name → ∃ shuffle : Shuffle String,
      (TabBarVC.assignTarget.completion screen shuffle documents).1.targetName = documentID

/-- What is written under a player's name is found under the identifier that the query
returns for it. -/
structure ReadsBack [Canonical] (deviceID : Option UUID) (room : Int) (player : Player) : Prop where
  /-- The identifier of the player's document is the name. -/
  direct : document? (players room) player.name = some (players room ++ [player.name])
  /-- Once the player has been registered, the query returns it. -/
  listed : ∀ {firestore : Firestore} {storage : Storage} {call : CallId}
    {events : List Event} {final : World},
    run World.step (World.start firestore storage)
      (.call call (.addPlayer deviceID room player) :: events) = some final →
    (∀ event ∈ events, event.performs = true) → final.outstanding = [] →
    player.name ∈ final.firestore.getDocuments (players room)
  /-- The owner's client does not draw its own player. -/
  excluded : ∀ documents, ∀ documentID ∈ playerID? room player,
    documentID ∉ TabBarVC.potentialTargets player.name documents
  /-- Every client whose name is another text can draw the player. -/
  drawn : ∀ name, ¬SameText player.name name → DrawnBy room player name
  /-- A client that has drawn the player downloads the photo that has been uploaded. -/
  photo : ∀ documents, ∀ documentID ∈ playerID? room player, ∀ screen : TabBarVC,
    ∀ shuffle : Shuffle String, screen.roomNumber = room →
    (TabBarVC.assignTarget.completion screen shuffle documents).1.targetName = documentID →
    ∀ path data, .putData path data ∈ (addPlayer deviceID room player).requests →
      (TabBarVC.assignTarget.completion screen shuffle documents).2 = path

theorem photoRef_of_mem_addPlayer {deviceID : Option UUID} {room : Int} {player : Player}
    {path : StoragePath} {data : Data}
    (uploaded : .putData path data ∈ (addPlayer deviceID room player).requests) :
    path = photoRef room player.name := by
  rw [addPlayer_requests_eq] at uploaded
  revert uploaded
  cases document? (players room) player.name <;> cases deviceID <;>
    cases player.image.pngData <;> simp +contextual

theorem readsBack_of_plain [Canonical] {player : Player} (plain : Plain player.name)
    (deviceID : Option UUID) (room : Int) : ReadsBack deviceID room player := by
  have named := @document?_player room player plain
  have own : playerID? room player = some player.name := playerID?_of_plain plain
  constructor
  case direct => exact named
  case listed =>
    intro firestore storage call events final performed continues done
    have changes := Operation.addPlayer_changes deviceID room player
    have one := @onePicture_of_registration (.addPlayer deviceID room player) deviceID player
      (World.start firestore storage) rfl rfl call
    have ended := (Orderly.start firestore storage).run_call rfl changes one performed continues
      done
    rw [ended.1, Firestore.mem_getDocuments, mem_outcome_addPlayer rfl]
    exact .inl own
  case excluded =>
    intro documents documentID direct candidate
    rw [own, Option.mem_some_iff] at direct
    exact (TabBarVC.mem_potentialTargets.mp candidate).2 (direct ▸ .refl _)
  case drawn =>
    rintro name other documents documentID direct listed screen rfl
    rw [own, Option.mem_some_iff] at direct
    subst direct
    exact screen.exists_completion_targetName (TabBarVC.mem_potentialTargets.mpr ⟨listed, other⟩)
  case photo =>
    intro documents documentID direct screen shuffle inside shown path data uploaded
    rw [own, Option.mem_some_iff] at direct
    rw [TabBarVC.completion_photoRef, shown, inside, ← direct,
      photoRef_of_mem_addPlayer uploaded]

theorem readsBack_iff [Canonical] {deviceID : Option UUID} {room : Int} {player : Player}
    (named : (document? (players room) player.name).isSome) :
    ReadsBack deviceID room player ↔ '/' ∉ player.name.toList := by
  constructor
  · intro reads
    have single := document?_eq_some reads.direct
    exact (split_eq_singleton_iff.mp (List.append_cancel_left single).symm).2
  · intro free
    exact readsBack_of_plain ⟨name_ne_empty named, free⟩ deviceID room

theorem not_sameText_of_drawnBy [Canonical] {room : Int} {player : Player} {name : String}
    (plain : Plain player.name) (different : player.name ≠ name)
    (drawn : DrawnBy room player name) : ¬SameText player.name name := by
  intro same
  rcases drawn [player.name] player.name (playerID?_of_plain plain) (by simp)
    ⟨room, name, name⟩ rfl with ⟨shuffle, shows⟩
  rw [TabBarVC.completion_of_own ⟨room, name, name⟩ shuffle (by simpa using same)] at shows
  exact different shows.symm

/-- Two names for which `addPlayer` does not raise are read back, and if they differ, denote
different documents and are drawn by each other's clients, if and only if neither holds a
separator and they are not two spellings of the same text. -/
theorem names_read_back_iff [Canonical] {room : Int} {left right : Player}
    (leftNamed : (document? (players room) left.name).isSome)
    (rightNamed : (document? (players room) right.name).isSome)
    (leftDevice rightDevice : Option UUID) :
    (ReadsBack leftDevice room left ∧ ReadsBack rightDevice room right ∧
      (left.name ≠ right.name →
        document? (players room) left.name ≠ document? (players room) right.name ∧
          DrawnBy room left right.name ∧ DrawnBy room right left.name)) ↔
    '/' ∉ left.name.toList ∧ '/' ∉ right.name.toList ∧
      (left.name ≠ right.name → ¬SameText left.name right.name) := by
  rw [readsBack_iff leftNamed, readsBack_iff rightNamed]
  refine and_congr_right fun leftFree => and_congr_right fun rightFree =>
    imp_congr_right fun different => ⟨fun apart => ?_, fun other => ?_⟩
  · exact not_sameText_of_drawnBy ⟨name_ne_empty leftNamed, leftFree⟩ different apart.2.1
  · have leftReads : ReadsBack leftDevice room left := (readsBack_iff leftNamed).mpr leftFree
    have rightReads : ReadsBack rightDevice room right := (readsBack_iff rightNamed).mpr rightFree
    refine ⟨fun same => different ?_, leftReads.drawn _ other,
      rightReads.drawn _ fun same => other same.symm⟩
    rw [leftReads.direct, rightReads.direct] at same
    simpa using same

section Samples

open Ascii

theorem names_read_back_iff_ann_bob :
    ReadsBack (some somePhone) 7 (Player.init "ann" someImage) ∧
      ReadsBack (some somePhone) 7 (Player.init "bob" someImage) ∧
      ("ann" ≠ "bob" → document? (players 7) "ann" ≠ document? (players 7) "bob" ∧
        DrawnBy 7 (Player.init "ann" someImage) "bob" ∧
          DrawnBy 7 (Player.init "bob" someImage) "ann") :=
  (@names_read_back_iff _ 7 (Player.init "ann" someImage) (Player.init "bob" someImage)
    (by decide) (by decide) (some somePhone) (some somePhone)).mpr (by decide)

def joinWithSeparator : List Event :=
  (World.start ∅ ∅).follow [
    .call 0 (join 7 "bob/"), .answer 0, .answer 0, .answer 0, .answer 0]

/-- The query then returns another text, which denotes the same document. The client of the
player is shown the own player, and asks for a photo that nobody has uploaded. -/
theorem separator_is_not_read_back :
    (document? (players 7) "bob/").isSome ∧
      document? (players 7) "bob/" = document? (players 7) "bob" ∧
      ∃ final, run World.step (World.start ∅ ∅) joinWithSeparator = some final ∧
        final.outstanding = [] ∧ final.firestore.getDocuments (players 7) = ["bob"] ∧
        let own : TabBarVC := ⟨7, "bob/", TabBarVC.placeholder⟩
        let answer := TabBarVC.assignTarget.completion own .keep
          (final.firestore.getDocuments (players 7))
        answer.1.targetName = "bob" ∧ answer.2 ∉ final.storage := by
  have ends : (run World.step (World.start ∅ ∅) joinWithSeparator).any
      (fun final => final.outstanding = [] ∧
        final.firestore.getDocuments (players 7) = ["bob"] ∧
        (TabBarVC.assignTarget.completion ⟨7, "bob/", TabBarVC.placeholder⟩ .keep
          (final.firestore.getDocuments (players 7))).1.targetName = "bob" ∧
        (TabBarVC.assignTarget.completion ⟨7, "bob/", TabBarVC.placeholder⟩ .keep
          (final.firestore.getDocuments (players 7))).2 ∉ final.storage) = true := by decide
  exact ⟨by decide, by decide, run_ends ends⟩

end Samples

end AssassinGame
