import AssassinGame.Controller.TabBarVC
import AssassinGame.Foundation.Transition

/-! # The target card

The label is set when a query is answered, the picture when the download ends that the answer
starts. Queries and downloads overlap, and the handler of a download does not look at the label
again. The card shows one person while a download of the photo of the player on the label ends
after the others.
-/

namespace AssassinGame

open TabBarVC Transition

/-- The game screen of one phone with what it has under way. -/
structure Card where
  screen : TabBarVC
  /-- The picture in `targetImage`. -/
  targetImage : Option Data
  /-- The queries of `assignTarget` that have not been answered. -/
  queries : Nat
  /-- Some query has been answered. -/
  answered : Bool
  /-- The photos that are being downloaded, in the order in which they were asked for. -/
  downloads : List Download
  storage : Storage

namespace Card

inductive Event
  /-- The view appears once more. -/
  | assignTarget
  | answered (shuffle : Shuffle String) (documents : List String)
  /-- A query ends in an error. -/
  | refused
  | served (place : Nat)
  | downloaded (place : Nat)
  /-- A download ends in an error. -/
  | lost (place : Nat)
  /-- Somebody uploads a picture. -/
  | stored (path : StoragePath) (data : Data)

/-- The view has appeared for the first time. -/
def start (screen : TabBarVC) (targetImage : Option Data) (storage : Storage) : Card where
  screen := screen
  targetImage := targetImage
  queries := 1
  answered := false
  downloads := []
  storage := storage

def arrived (card : Card) (place : Nat) (object : Option Data) : Card :=
  { card with
    targetImage := getData.completion card.targetImage object
    downloads := card.downloads.eraseIdx place }

def step [Canonical] (card : Card) : Event → Option Card
  | .assignTarget => some { card with queries := card.queries + 1 }
  | .answered shuffle documents =>
      if card.queries = 0 then none
      else
        let (screen, reference) := assignTarget.completion card.screen shuffle documents
        some { card with
          screen := screen
          queries := card.queries - 1
          answered := true
          downloads := card.downloads ++ [.asked reference] }
  | .refused =>
      if card.queries = 0 then none else some { card with queries := card.queries - 1 }
  | .served place => do
      let download ← card.downloads[place]?
      let served ← download.serve card.storage
      return { card with downloads := card.downloads.set place served }
  | .downloaded place => do
      let download ← card.downloads[place]?
      let object ← download.object?
      return card.arrived place object
  | .lost place =>
      if place < card.downloads.length then some (card.arrived place none) else none
  | .stored path data => some { card with storage := card.storage.insert path data }

def photoRef (card : Card) : StoragePath :=
  AssassinGame.photoRef card.screen.roomNumber card.screen.targetName

/-- The card shows one person: the picture is the registered photo of the player on the
label. -/
def OnePerson (card : Card) : Prop :=
  (card.storage.lookup card.photoRef).isSome = true ∧
    card.targetImage = card.storage.lookup card.photoRef

instance (card : Card) : Decidable card.OnePerson :=
  inferInstanceAs (Decidable (_ ∧ _))

def Idle (card : Card) : Prop := card.queries = 0 ∧ card.downloads = []

instance (card : Card) : Decidable card.Idle := inferInstanceAs (Decidable (_ ∧ _))

/-- The download is of the photo of the player on the label, and has not been served another. -/
def Due (card : Card) (download : Download) : Prop :=
  download.path = card.photoRef ∧ download.Brings (card.storage.lookup card.photoRef)

instance (card : Card) (download : Download) : Decidable (card.Due download) :=
  inferInstanceAs (Decidable (_ ∧ _))

/-- A download that is due ends after all others, and not in an error. Some query has been
answered before the last one under way is refused. The photo of the player on the label is not
replaced by another once its downloads have been served. -/
def InOrder (card : Card) : Event → Prop
  | .downloaded place => (∃ other ∈ card.downloads.eraseIdx place, card.Due other) ∨
      ∀ download ∈ card.downloads, card.downloads = [download] ∧ download.object? ≠ some none
  | .lost place => ∃ other ∈ card.downloads.eraseIdx place, card.Due other
  | .refused => card.queries = 1 → card.answered = true
  | .stored path data => card.answered = true → path = card.photoRef →
      .asked path ∈ card.downloads ∨ card.storage.lookup path = some data
  | .assignTarget | .answered _ _ | .served _ => True

instance (card : Card) : ∀ event, Decidable (card.InOrder event)
  | .downloaded _ => inferInstanceAs (Decidable (_ ∨ _))
  | .lost place => inferInstanceAs
      (Decidable (∃ other ∈ card.downloads.eraseIdx place, card.Due other))
  | .refused | .stored _ _ => inferInstanceAs (Decidable (_ → _))
  | .assignTarget | .answered _ _ | .served _ => inferInstanceAs (Decidable True)

/-! ## One event -/

/-- Once a query has been answered a download is due, until the card shows the player on the
label. -/
inductive Orderly (card : Card) : Prop
  | waits (fresh : card.answered = false) (asks : card.queries ≠ 0) (empty : card.downloads = [])
  | loads (answered : card.answered = true) {download : Download}
      (member : download ∈ card.downloads) (due : card.Due download)
  | shows (answered : card.answered = true) (empty : card.downloads = []) (one : card.OnePerson)

variable {card next : Card}

theorem Orderly.stored (orderly : card.Orderly) {path : StoragePath} {data : Data}
    (inOrder : card.InOrder (.stored path data)) :
    ({ card with storage := card.storage.insert path data } : Card).Orderly := by
  have kept (same : path = card.photoRef → card.storage.lookup path = some data) :
      (card.storage.insert path data).lookup card.photoRef =
        card.storage.lookup card.photoRef := by
    by_cases named : card.photoRef = path
    · subst named
      exact (AList.lookup_insert card.storage).trans (same rfl).symm
    · exact AList.lookup_insert_ne named
  cases orderly with
  | waits fresh asks empty => exact .waits fresh asks empty
  | @loads answered download member due =>
      by_cases unserved : .asked path ∈ card.downloads ∧ path = card.photoRef
      · exact .loads answered unserved.1 ⟨unserved.2, nofun⟩
      · have same := kept fun named =>
          (inOrder answered named).resolve_left fun asked => unserved ⟨asked, named⟩
        exact .loads answered member ⟨due.1, fun object carries =>
          (due.2 object carries).trans same.symm⟩
  | shows answered empty one =>
      have same := kept fun named =>
        (inOrder answered named).resolve_left (by simp [empty])
      refine .shows answered empty ⟨?_, ?_⟩
      · exact (congrArg Option.isSome same).trans one.1
      · exact one.2.trans same.symm

variable [Canonical]

theorem Orderly.answered {shuffle : Shuffle String} {documents : List String}
    (stepped : card.step (.answered shuffle documents) = some next) : next.Orderly := by
  rw [step, Option.ite_none_left_eq_some] at stepped
  cases stepped.2
  refine .loads rfl (List.mem_append_right _ List.mem_cons_self) ⟨?_, nofun⟩
  exact completion_photoRef card.screen shuffle documents

theorem Orderly.served (orderly : card.Orderly) {place : Nat}
    (stepped : card.step (.served place) = some next) : next.Orderly := by
  rcases Option.bind_eq_some_iff.mp stepped with ⟨download, found, rest⟩
  rcases Option.bind_eq_some_iff.mp rest with ⟨served, serves, same⟩
  cases same
  cases orderly with
  | waits _ _ empty | shows _ empty _ => simp [empty] at found
  | loads answered member due =>
      rcases Download.exists_mem_served found serves member (due.1 ▸ due.2) with
        ⟨other, inside, own, brings⟩
      rw [due.1] at own brings
      exact .loads answered inside ⟨own, brings⟩

theorem Orderly.downloaded (orderly : card.Orderly) {place : Nat}
    (inOrder : card.InOrder (.downloaded place))
    (stepped : card.step (.downloaded place) = some next) : next.Orderly := by
  rcases Option.bind_eq_some_iff.mp stepped with ⟨download, found, rest⟩
  rcases Option.bind_eq_some_iff.mp rest with ⟨object, carries, same⟩
  cases same
  cases orderly with
  | waits _ _ empty | shows _ empty _ => simp [empty] at found
  | @loads answered last member due =>
      rcases inOrder with ⟨other, stays, dueToo⟩ | ends
      · exact .loads answered stays dueToo
      · -- the last download ends, and it is the one that is due
        rcases ends last member with ⟨alone, succeeds⟩
        rw [alone] at found
        have inside := (List.getElem?_eq_some_iff.mp found).1
        rw [List.length_singleton, Nat.lt_one_iff] at inside
        subst inside
        cases found
        have brought := due.2 object carries
        rcases Option.ne_none_iff_exists'.mp fun none' =>
          succeeds (carries.trans (congrArg some none')) with ⟨data, rfl⟩
        refine .shows answered ?_ ⟨?_, brought⟩
        · rw [arrived, alone]
          rfl
        · exact Option.isSome_of_eq_some brought.symm

theorem Orderly.step (orderly : card.Orderly) {event : Event} (inOrder : card.InOrder event)
    (stepped : card.step event = some next) : next.Orderly := by
  cases event with
  | assignTarget =>
      cases stepped
      cases orderly with
      | waits fresh _ empty => exact .waits fresh (Nat.succ_ne_zero _) empty
      | loads answered member due => exact .loads answered member due
      | shows answered empty one => exact .shows answered empty one
  | answered shuffle documents => exact .answered stepped
  | refused =>
      rw [Card.step, Option.ite_none_left_eq_some] at stepped
      cases stepped.2
      cases orderly with
      | waits fresh asks empty =>
          refine .waits fresh (fun none' => ?_) empty
          have single : card.queries = 1 := by
            change card.queries - 1 = 0 at none'
            omega
          exact Bool.false_ne_true (fresh.symm.trans (inOrder single))
      | loads answered member due => exact .loads answered member due
      | shows answered empty one => exact .shows answered empty one
  | served place => exact orderly.served stepped
  | downloaded place => exact orderly.downloaded inOrder stepped
  | lost place =>
      rw [Card.step, Option.ite_none_right_eq_some] at stepped
      rcases stepped with ⟨inside, same⟩
      cases same
      rcases inOrder with ⟨other, stays, due⟩
      cases orderly with
      | waits _ _ empty | shows _ empty _ => simp [empty] at inside
      | loads answered _ _ => exact .loads answered stays due
  | stored path data =>
      cases stepped
      exact orderly.stored inOrder

end Card

/-- Queries and downloads overlap in any way, except that a download of the photo of the player on
the label ends after all others and not in an error. Then the card shows one person whenever
nothing is under way. -/
theorem target_card_shows_one_person [Canonical] {screen : TabBarVC} {targetImage : Option Data}
    {storage : Storage} {events : List Card.Event} {final : Card}
    (performed : run Card.step (Card.start screen targetImage storage) events = some final)
    (inOrder : Meets Card.step Card.InOrder (Card.start screen targetImage storage) events)
    (idle : final.Idle) : final.OnePerson := by
  have orderly := run_invariant Card.Orderly
    (fun _ _ _ orderly inOrder stepped => orderly.step inOrder stepped)
    (.waits rfl Nat.one_ne_zero rfl) inOrder performed
  cases orderly with
  | waits _ asks _ => exact absurd idle.1 asks
  | loads _ member _ => exact absurd idle.2 (List.ne_nil_of_mem member)
  | shows _ _ one => exact one

section Photos

open Ascii

def twoPhotos : Storage :=
  ((∅ : Storage).insert (photoRef 7 "cat") [1]).insert (photoRef 7 "bob") [2]

/-- The card is assigned a second target while the first photo is being downloaded. -/
def reassigned : List Card.Event := [
  .answered .keep ["ann", "bob"], .assignTarget, .answered .keep ["ann", "bob", "cat"],
  .served 0, .served 1]

theorem target_card_shows_one_person_reassigned :
    ∃ card, run Card.step (Card.start ⟨7, "ann", placeholder⟩ none twoPhotos)
        (reassigned ++ [.downloaded 0, .downloaded 0]) = some card ∧
      card.screen.targetName = "cat" ∧ card.OnePerson := by
  have ends : (run Card.step (Card.start ⟨7, "ann", placeholder⟩ none twoPhotos)
      (reassigned ++ [.downloaded 0, .downloaded 0])).any (fun card =>
        card.screen.targetName = "cat" ∧ card.Idle) = true := by decide
  rcases run_ends ends with ⟨card, performed, named, idle⟩
  exact ⟨card, performed, named, target_card_shows_one_person performed (by decide) idle⟩

/-- The photo that was asked for first arrives last. -/
theorem target_card_shows_two_people :
    ∃ card, run Card.step (Card.start ⟨7, "ann", placeholder⟩ none twoPhotos)
        (reassigned ++ [.downloaded 1, .downloaded 0]) = some card ∧
      card.Idle ∧ card.screen.targetName = "cat" ∧
      card.targetImage = twoPhotos.lookup (photoRef 7 "bob") ∧ ¬card.OnePerson :=
  run_ends (by decide)

end Photos

end AssassinGame
