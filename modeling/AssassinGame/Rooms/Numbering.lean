import AssassinGame.Foundation.Draws
import AssassinGame.Rooms.Completion

/-! # How rooms come by their numbers

A room number is read off an order of the ten digits. Nobody looks whether a number is taken,
so that rooms are kept apart by the draws alone.
-/

namespace AssassinGame

open AssassinGame.Draws Segments Transition World

/-! ## One draw -/

def drawnNumber (order : List Nat) : Int :=
  (order.take 4).foldl (fun (value : Int) (digit : Nat) => value * 10 + digit) 0

theorem generateRoomNumber_eq (shuffled : Shuffle Nat) :
    generateRoomNumber shuffled = drawnNumber (shuffled (List.range 10)) := rfl

def fourDigits (room : Int) : List Nat :=
  [(room / 1000 % 10).toNat, (room / 100 % 10).toNat, (room / 10 % 10).toNat, (room % 10).toNat]

/-- The numbers of four different digits, of which the first may be 0. -/
def roomNumbers : Finset Int :=
  ((Finset.range 10000).image (Nat.cast : Nat → Int)).filter fun room => (fourDigits room).Nodup

theorem mem_roomNumbers {room : Int} :
    room ∈ roomNumbers ↔ (0 ≤ room ∧ room ≤ 9999) ∧ (fourDigits room).Nodup := by
  rw [roomNumbers, Finset.mem_filter, Finset.mem_image]
  refine and_congr_left' ⟨?_, fun bounds => ?_⟩
  · rintro ⟨number, below, rfl⟩
    rw [Finset.mem_range] at below
    omega
  · exact ⟨room.toNat, Finset.mem_range.mpr (by omega), Int.toNat_of_nonneg bounds.1⟩

theorem fourDigits_of_order {order : List Nat} (ordered : order.Perm (List.range 10)) :
    fourDigits (drawnNumber order) = order.take 4 ∧
      0 ≤ drawnNumber order ∧ drawnNumber order ≤ 9999 := by
  have small : ∀ digit ∈ order.take 4, digit < 10 := fun digit member =>
    List.mem_range.mp (ordered.mem_iff.mp (List.mem_of_mem_take member))
  have short : (order.take 4).length = 4 := by simp [ordered.length_eq]
  rw [drawnNumber]
  match shape : order.take 4, short with
  | [first, second, third, fourth], _ =>
      simp only [shape, List.mem_cons, List.not_mem_nil, or_false, forall_eq_or_imp,
        forall_eq] at small
      simp only [fourDigits, List.foldl_cons, List.foldl_nil, List.cons.injEq, and_true]
      omega

theorem drawnNumber_mem {order : List Nat} (ordered : order.Perm (List.range 10)) :
    drawnNumber order ∈ roomNumbers := by
  rcases fourDigits_of_order ordered with ⟨digits, bounds⟩
  rw [mem_roomNumbers, digits]
  refine ⟨bounds, (List.take_sublist 4 order).nodup ?_⟩
  exact ordered.nodup_iff.mpr List.nodup_range

theorem eq_of_fourDigits {left right : Int} (leftBounds : 0 ≤ left ∧ left ≤ 9999)
    (rightBounds : 0 ≤ right ∧ right ≤ 9999) (same : fourDigits left = fourDigits right) :
    left = right := by
  simp only [fourDigits, List.cons.injEq, and_true] at same
  omega

theorem drawnNumber_eq_iff {order : List Nat} (ordered : order.Perm (List.range 10))
    {room : Int} (bounds : 0 ≤ room ∧ room ≤ 9999) :
    drawnNumber order = room ↔ fourDigits room <+: order := by
  rcases fourDigits_of_order ordered with ⟨digits, drawnBounds⟩
  constructor
  · intro drawn
    rw [← drawn, digits]
    exact List.take_prefix 4 order
  · intro starts
    have taken : order.take 4 = fourDigits room := (List.prefix_iff_eq_take.mp starts).symm
    exact eq_of_fourDigits drawnBounds bounds (digits.trans taken)

theorem card_orders_drawnNumber {room : Int} (possible : room ∈ roomNumbers) :
    ((orders (List.range 10)).filter (drawnNumber · = room)).card = 720 := by
  rcases mem_roomNumbers.mp possible with ⟨bounds, nodup⟩
  have digits : fourDigits room ⊆ List.range 10 := by
    intro digit member
    simp only [fourDigits, List.mem_cons, List.not_mem_nil, or_false] at member
    rw [List.mem_range]
    omega
  rcases List.subperm_of_subset nodup digits with ⟨same, perm, inside⟩
  rcases inside.exists_perm_append with ⟨rest, split⟩
  have perm : (fourDigits room ++ rest).Perm (List.range 10) :=
    (perm.symm.append_right rest).trans split.symm
  have size : rest.length = 6 := by
    have length := perm.length_eq
    simp only [List.length_range, List.length_append] at length
    simp only [fourDigits, List.length_cons, List.length_nil] at length
    omega
  rw [show (720 : Nat) = rest.length.factorial by rw [size]; rfl,
    ← card_orders_front List.nodup_range perm]
  refine congrArg Finset.card (Finset.filter_congr fun order member => ?_)
  exact drawnNumber_eq_iff (mem_orders.mp member) bounds

theorem card_roomNumbers : roomNumbers.card = 5040 := by
  have all : Nat.factorial 10 = 5040 * 720 := by norm_num [Nat.factorial]
  have total : (orders (List.range 10)).card = roomNumbers.card * 720 :=
    card_orders_of_even (fun _ member => drawnNumber_mem (mem_orders.mp member))
      fun _ possible => card_orders_drawnNumber possible
  rw [card_orders List.nodup_range, List.length_range, all] at total
  exact Nat.eq_of_mul_eq_mul_right (by decide) total.symm

/-- Each number of four different digits comes of 720 of the orders of the digits, and no other
number comes of any. -/
theorem room_numbers_drawn_evenly (room : Int) :
    ∃ drawing ⊆ orders (List.range 10),
      drawing.card = (if room ∈ roomNumbers then 720 else 0) ∧
      ∀ shuffled : Shuffle Nat, generateRoomNumber shuffled = room ↔
        shuffled (List.range 10) ∈ drawing := by
  refine ⟨(orders (List.range 10)).filter (drawnNumber · = room), Finset.filter_subset _ _,
    ?_, fun shuffled => ?_⟩
  · split
    · rename_i possible
      exact card_orders_drawnNumber possible
    · rename_i impossible
      rw [Finset.card_eq_zero, Finset.filter_eq_empty_iff]
      intro order member drawn
      exact impossible (drawn ▸ drawnNumber_mem (mem_orders.mp member))
  · rw [Finset.mem_filter, mem_orders, generateRoomNumber_eq]
    exact (and_iff_right (shuffled.perm _)).symm

/-! ## Which documents of games there are -/

section Listed

variable {events : List Event} {final : World}

theorem mem_games_iff (performed : run World.step (World.start ∅ ∅) events = some final)
    (done : final.outstanding = [])
    (unpublished : ∀ call ∈ final.calls, call.2.published = none) {id : String} :
    id ∈ final.firestore.getDocuments games ↔
      ∃ call ∈ final.calls, ∃ game, call.2.opened = some game ∧
        id = decimal game.roomNumber := by
  have vouched : final.Vouched :=
    run_keeps World.Vouched (fun vouched stepped => vouched.step stepped) .start performed
  have pursued : final.Pursued := .run performed
  rw [Firestore.mem_getDocuments]
  constructor
  · intro member
    rcases Option.isSome_iff_exists.mp (AList.lookup_isSome.mpr member) with ⟨document, found⟩
    rcases (vouched.stored _ _ found).at_games with
      ⟨call, called, game, _, opened, own, _⟩ | ⟨call, called, name, publishes, _⟩
    · exact ⟨call, called, game, opened, own⟩
    · cases (unpublished call called).symm.trans publishes
  · intro ⟨call, called, game, opened, own⟩
    subst own
    exact pursued.stored done called (asked_of_opened opened) fun _ _ _ _ named =>
      gameRef_ne_child named rfl

end Listed

/-! ## Rooms opened together -/

theorem card_draws_digits (count : Nat) :
    (draws fun _ : Fin count => List.range 10).card = (5040 * 720) ^ count := by
  rw [card_draws fun _ => List.nodup_range, Finset.prod_const, Finset.card_univ,
    Fintype.card_fin, List.length_range]
  rfl

theorem card_draws_apart (count : Nat) :
    ((draws fun _ : Fin count => List.range 10).filter
      fun draw => Function.Injective fun phone => drawnNumber (draw phone)).card =
        (5040).descFactorial count * 720 ^ count := by
  have counted := @card_draws_filter (Fin count) _ _ Nat _ Int _ (fun _ => List.range 10)
    (fun _ => drawnNumber) (fun _ => roomNumbers) (fun _ => 720)
    (fun _ _ member => drawnNumber_mem (mem_orders.mp member))
    (fun _ _ possible => card_orders_drawnNumber possible) Function.Injective _
  rw [counted, card_injective_choices, card_roomNumbers, Fintype.card_fin, Finset.prod_const,
    Finset.card_univ, Fintype.card_fin]

theorem length_eq_card_iff {ι α : Type} [Fintype ι] [DecidableEq α] {values : List α}
    {value : ι → α} (nodup : values.Nodup)
    (gives : ∀ given, given ∈ values ↔ ∃ index, given = value index) :
    values.length = Fintype.card ι ↔ Function.Injective value := by
  have same : values.toFinset = Finset.univ.image value := by
    ext given
    simp [gives, eq_comm]
  rw [← List.toFinset_card_of_nodup nodup, same, ← Finset.card_univ, Finset.card_image_iff,
    Finset.coe_univ, Set.injOn_univ]

theorem published_of_opened {operation : Operation} {game : Game}
    (opened : operation.opened = some game) : operation.published = none := by
  cases operation with
  | uploadKillshotName | imagePickerController => cases opened
  | _ => rfl

theorem length_games_iff {count : Nat} {opening : Fin count → Operation} {events : List Event}
    {final : World} (performed : run World.step (World.start ∅ ∅) events = some final)
    (done : final.outstanding = [])
    (made : (final.calls.map Prod.snd).Perm (List.ofFn opening))
    (opens : ∀ phone, ∃ game, (opening phone).opened = some game) :
    (final.firestore.getDocuments games).length = count ↔
      Function.Injective fun phone => (opening phone).room := by
  have mem_calls : ∀ operation, operation ∈ final.calls.map Prod.snd ↔
      ∃ phone, opening phone = operation := fun operation =>
    made.mem_iff.trans (List.mem_ofFn' _ _)
  have unpublished : ∀ call ∈ final.calls, call.2.published = none := by
    intro call called
    rcases (mem_calls call.2).mp (List.mem_map_of_mem called) with ⟨phone, same⟩
    rcases opens phone with ⟨game, opened⟩
    exact published_of_opened (same ▸ opened)
  have gives : ∀ id, id ∈ final.firestore.getDocuments games ↔
      ∃ phone, id = decimal (opening phone).room := by
    intro id
    rw [mem_games_iff performed done unpublished]
    constructor
    · intro ⟨call, called, game, opened, own⟩
      rcases (mem_calls call.2).mp (List.mem_map_of_mem called) with ⟨phone, same⟩
      refine ⟨phone, ?_⟩
      rw [same]
      exact own.trans (congrArg decimal (roomNumber_of_opened opened))
    · intro ⟨phone, own⟩
      rcases List.mem_map.mp ((mem_calls _).mpr ⟨phone, rfl⟩) with ⟨call, called, same⟩
      rcases opens phone with ⟨game, opened⟩
      rw [← same] at opened own
      exact ⟨call, called, game, opened,
        own.trans (congrArg decimal (roomNumber_of_opened opened).symm)⟩
  have counted := length_eq_card_iff (final.firestore.nodup_getDocuments games) gives
  rw [Fintype.card_fin] at counted
  exact counted.trans (decimal_injective.of_comp_iff fun phone => (opening phone).room)

/-- However the requests of phones that open rooms interleave, there is in the end a game for
each phone exactly if the phones drew numbers that all differ. So many of the orders in which
their digits can come do that, and none do where there are more phones than numbers. -/
theorem rooms_opened_apart {count : Nat} (screen : Fin count → CreateGameVC)
    (date : Fin count → String) (deviceID : Fin count → Option UUID)
    (filled : ∀ phone, (int? (screen phone).numOfPlayers).isSome ∧
      (screen phone).imageToUpload.isSome) :
    (draws fun _ : Fin count => List.range 10).card = (5040 * 720) ^ count ∧
    ∃ apart ⊆ draws fun _ : Fin count => List.range 10,
      apart.card = (5040).descFactorial count * 720 ^ count ∧
      ∀ (shuffled : Fin count → Shuffle Nat) (events : List Event) (final : World),
        run World.step (World.start ∅ ∅) events = some final →
        (final.calls.map Prod.snd).Perm (List.ofFn fun phone => .createRoom (screen phone)
          (generateRoomNumber (shuffled phone)) (date phone) (deviceID phone)) →
        final.outstanding = [] →
        ((final.firestore.getDocuments games).length = count ↔
          Function.Injective fun phone => generateRoomNumber (shuffled phone)) ∧
        ((final.firestore.getDocuments games).length = count ↔
          (fun phone => shuffled phone (List.range 10)) ∈ apart) := by
  refine ⟨card_draws_digits count, _, Finset.filter_subset _ _, card_draws_apart count,
    fun shuffled events final performed made done => ?_⟩
  have opens : ∀ phone, ∃ game, (Operation.createRoom (screen phone)
      (generateRoomNumber (shuffled phone)) (date phone) (deviceID phone)).opened =
        some game := by
    intro phone
    rcases Option.isSome_iff_exists.mp (filled phone).1 with ⟨playerCount, counted⟩
    rcases Option.isSome_iff_exists.mp (filled phone).2 with ⟨image, pictured⟩
    exact ⟨_, by rw [Operation.opened, counted, pictured]⟩
  have numbered := length_games_iff performed done made opens
  refine ⟨numbered, numbered.trans ?_⟩
  rw [Finset.mem_filter, mem_draws]
  exact (and_iff_right fun phone => (shuffled phone).perm _).symm

/-- Two phones draw the same number; the second is first to write. -/
def createTwice : List Event :=
  (World.start ∅ ∅).follow [.call 0 (create 123 "ann" (.last 100)),
    .call 1 (create 123 "bob" (.last 100)),
    .answer 5, .answer 5, .answer 0, .answer 0, .answer 0, .answer 0, .answer 0, .answer 0,
    .answer 0, .answer 0, .answer 0, .answer 0]

theorem rooms_opened_apart_createTwice :
    ∃ apart ⊆ draws fun _ : Fin 2 => List.range 10,
      apart.card = 5040 * 5039 * 720 ^ 2 ∧ (fun _ => List.range 10) ∉ apart ∧
        ¬ Function.Injective fun _ : Fin 2 => generateRoomNumber .keep := by
  rcases rooms_opened_apart ![createScreen "ann" (.last 100), createScreen "bob" (.last 100)]
    (fun _ => "noon") (fun _ => some somePhone) (by decide) with
    ⟨_, apart, inside, count, rooms⟩
  have ends : (run World.step (World.start ∅ ∅) createTwice).any (fun final =>
      (final.calls.map Prod.snd).Perm
          [create 123 "ann" (.last 100), create 123 "bob" (.last 100)] ∧
        final.outstanding = [] ∧ (final.firestore.getDocuments games).length = 1) = true := by
    decide
  rcases run_ends ends with ⟨final, performed, made, done, one⟩
  rcases rooms (fun _ => .keep) createTwice final performed made done with ⟨numbers, digits⟩
  refine ⟨apart, inside, count, fun member => ?_, fun different => ?_⟩
  · have two := digits.mpr member
    omega
  · have two := numbers.mpr different
    omega

end AssassinGame
