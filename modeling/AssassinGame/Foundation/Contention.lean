import AssassinGame.Foundation.Transition
import Mathlib.Algebra.BigOperators.Group.List.Basic
import Mathlib.Algebra.Order.Monoid.Unbundled.Basic
import Mathlib.Algebra.Order.Group.Defs
import Mathlib.Data.List.Nodup
import Mathlib.Data.List.Perm.Subperm

/-! # Clients that change a value by reading it and writing it back

Each client reads the value once and later writes what it read with its own change. Other
clients may write in between, and what they wrote is then lost. The last client to write
has read what some other client wrote, and so on back to the value at the start: what is
left in the end are the changes along one such chain.
-/

namespace AssassinGame.Contention

open Transition

variable {Client : Type u} {Amount : Type v}

inductive Phase (Amount : Type v)
  | waiting
  | holding (value : Amount)
  | done

structure Register (Client : Type u) (Amount : Type v) where
  value : Amount
  phase : Client → Phase Amount

inductive Access (Client : Type u)
  | read (client : Client)
  | write (client : Client)

def Access.client : Access Client → Client
  | .read client => client
  | .write client => client

def Access.writer? : Access Client → Option Client
  | .read _ => none
  | .write client => some client

def Register.start (Client : Type u) (value : Amount) : Register Client Amount where
  value := value
  phase _ := .waiting

namespace Register

variable [DecidableEq Client]

def advance (register : Register Client Amount) (client : Client) (phase : Phase Amount) :
    Register Client Amount :=
  { register with phase := Function.update register.phase client phase }

def put (register : Register Client Amount) (client : Client) (value : Amount) :
    Register Client Amount :=
  { register.advance client .done with value := value }

@[simp] theorem put_value (register : Register Client Amount) (client : Client)
    (value : Amount) : (register.put client value).value = value := rfl

@[simp] theorem advance_same (register : Register Client Amount) (client : Client)
    (phase : Phase Amount) : (register.advance client phase).phase client = phase :=
  Function.update_self ..

@[simp] theorem put_same (register : Register Client Amount) (client : Client)
    (value : Amount) : (register.put client value).phase client = .done :=
  Function.update_self ..

theorem advance_other {client other : Client} (different : other ≠ client)
    (register : Register Client Amount) (phase : Phase Amount) :
    (register.advance client phase).phase other = register.phase other :=
  Function.update_of_ne different _ _

theorem put_other {client other : Client} (different : other ≠ client)
    (register : Register Client Amount) (value : Amount) :
    (register.put client value).phase other = register.phase other :=
  Function.update_of_ne different _ _

end Register

/-! ## Who has written -/

def writers (accesses : List (Access Client)) : List Client := accesses.filterMap Access.writer?

@[simp] theorem writers_nil : writers ([] : List (Access Client)) = [] := rfl

theorem writers_cons_read (client : Client) (accesses : List (Access Client)) :
    writers (.read client :: accesses) = writers accesses := List.filterMap_cons_none rfl

theorem writers_cons_write (client : Client) (accesses : List (Access Client)) :
    writers (.write client :: accesses) = client :: writers accesses :=
  List.filterMap_cons_some rfl

theorem writers_append (first second : List (Access Client)) :
    writers (first ++ second) = writers first ++ writers second := List.filterMap_append

theorem writers_map_read (clients : List Client) : writers (clients.map .read) = [] := by
  simp [writers, Access.writer?, Function.comp_def]

theorem writers_map_write (clients : List Client) : writers (clients.map .write) = clients := by
  simp [writers, Access.writer?, Function.comp_def]

theorem mem_writers {accesses : List (Access Client)} {client : Client} :
    client ∈ writers accesses ↔ .write client ∈ accesses := by
  simp only [writers, List.mem_filterMap]
  constructor
  · rintro ⟨access, member, found⟩
    cases access with
    | read => cases found
    | write => exact Option.some.inj found ▸ member
  · intro member
    exact ⟨_, member, rfl⟩

def turns (clients : List Client) : List (Access Client) :=
  clients.flatMap fun client => [.read client, .write client]

theorem client_mem_of_turns {clients : List Client} {access : Access Client}
    (member : access ∈ turns clients) : access.client ∈ clients := by
  rcases List.mem_flatMap.mp member with ⟨client, inside, accessed⟩
  simp only [List.mem_cons, List.not_mem_nil, or_false] at accessed
  rcases accessed with rfl | rfl <;> exact inside

theorem writers_turns (clients : List Client) : writers (turns clients) = clients := by
  induction clients with
  | nil => rfl
  | cons client clients induction =>
      simp only [turns, writers, List.flatMap_cons, List.cons_append, List.nil_append,
        List.filterMap_cons, Access.writer?] at induction ⊢
      rw [induction]

/-! ## Reading and writing -/

section Steps

variable [DecidableEq Client] [Add Amount] (change : Client → Amount)

def step (register : Register Client Amount) : Access Client → Option (Register Client Amount)
  | .read client =>
      match register.phase client with
      | .waiting => some (register.advance client (.holding (register.value + change client)))
      | _ => none
  | .write client =>
      match register.phase client with
      | .holding value => some (register.put client value)
      | _ => none

variable {change} {register next : Register Client Amount} {client : Client}

theorem step_read :
    step change register (.read client) = some next ↔
      register.phase client = .waiting ∧
        next = register.advance client (.holding (register.value + change client)) := by
  rw [step]
  split
  · rename_i waits
    simp only [Option.some.injEq, waits, true_and]
    exact eq_comm
  · rename_i other
    exact iff_of_false nofun fun both => other both.1

theorem step_write :
    step change register (.write client) = some next ↔
      ∃ value, register.phase client = .holding value ∧ next = register.put client value := by
  rw [step]
  split
  · rename_i value holds
    simp only [Option.some.injEq, holds, Phase.holding.injEq, exists_eq_left']
    exact eq_comm
  · rename_i other
    exact iff_of_false nofun fun ⟨value, holds, _⟩ => other value holds

/-- What a client holds after a step it held before, unless it has just read it. -/
theorem held_cases {access : Access Client} {value : Amount}
    (stepped : step change register access = some next)
    (holds : next.phase client = .holding value) :
    register.phase client = .holding value ∨
      (access = .read client ∧ value = register.value + change client) := by
  cases access with
  | read reader =>
      rcases step_read.mp stepped with ⟨_, rfl⟩
      by_cases own : client = reader
      · subst own
        rw [Register.advance_same, Phase.holding.injEq] at holds
        exact .inr ⟨rfl, holds.symm⟩
      · rw [Register.advance_other own] at holds
        exact .inl holds
  | write writer =>
      rcases step_write.mp stepped with ⟨_, _, rfl⟩
      by_cases own : client = writer
      · subst own
        rw [Register.put_same] at holds
        cases holds
      · rw [Register.put_other own] at holds
        exact .inl holds

theorem eq_nil_of_done {accesses : List (Access Client)}
    (done : ∀ access ∈ accesses, register.phase access.client = .done)
    (performed : run (step change) register accesses = some next) : accesses = [] := by
  cases accesses with
  | nil => rfl
  | cons access accesses =>
      rcases run_cons_eq_some.mp performed with ⟨middle, stepped, _⟩
      have finished := done access List.mem_cons_self
      cases access with
      | read client =>
          rw [Access.client, (step_read.mp stepped).1] at finished
          cases finished
      | write client =>
          rcases step_write.mp stepped with ⟨_, holds, _⟩
          rw [Access.client, holds] at finished
          cases finished

/-- Whoever is done after a run has written in it or was done before, once. -/
theorem writers_of_done {accesses : List (Access Client)} {written : List Client}
    (before : written.Nodup ∧ ∀ client, client ∈ written ↔ register.phase client = .done)
    (performed : run (step change) register accesses = some next) :
    (written ++ writers accesses).Nodup ∧
      ∀ client, client ∈ written ++ writers accesses ↔ next.phase client = .done := by
  induction accesses generalizing register written with
  | nil =>
      cases performed
      simpa using before
  | cons access accesses induction =>
      rcases run_cons_eq_some.mp performed with ⟨middle, stepped, rest⟩
      cases access with
      | read reader =>
          rcases step_read.mp stepped with ⟨waits, rfl⟩
          refine induction ⟨before.1, fun client => ?_⟩ rest
          rw [before.2]
          by_cases own : client = reader
          · subst own
            rw [Register.advance_same, waits]
            exact iff_of_false nofun nofun
          · rw [Register.advance_other own]
      | write writer =>
          rcases step_write.mp stepped with ⟨value, holds, rfl⟩
          have absent : writer ∉ written := fun member => by
            have finished := (before.2 writer).mp member
            rw [holds] at finished
            cases finished
          rw [writers_cons_write, List.append_cons]
          refine induction ⟨?_, fun client => ?_⟩ rest
          · rw [List.nodup_append]
            refine ⟨before.1, List.nodup_singleton _, ?_⟩
            rintro client member _ last rfl
            exact absent (List.mem_singleton.mp last ▸ member)
          · rw [List.mem_append, List.mem_singleton, before.2]
            by_cases own : client = writer
            · subst own
              simp
            · simp [Register.put_other own, own]

theorem writers_of_start {start : Amount} {accesses : List (Access Client)}
    (performed : run (step change) (Register.start Client start) accesses = some next) :
    (writers accesses).Nodup ∧ ∀ client, client ∈ writers accesses ↔ next.phase client = .done :=
  writers_of_done ⟨.nil, by simp [Register.start]⟩ performed

end Steps

/-! ## The chain behind a value -/

section Chains

variable [AddCommMonoid Amount] {change : Client → Amount} {start : Amount}

def total (change : Client → Amount) (clients : List Client) : Amount := (clients.map change).sum

theorem total_append (first second : List Client) :
    total change (first ++ second) = total change first + total change second := by
  simp [total]

@[simp] theorem total_singleton (client : Client) : total change [client] = change client := by
  simp [total]

/-- The value and all that is held go back to the start through clients that have written. -/
structure Explained (change : Client → Amount) (start : Amount) (written : List Client)
    (register : Register Client Amount) : Prop where
  value : ∃ chain, chain.Sublist written ∧ (chain = [] → written = []) ∧
    register.value = start + total change chain
  held : ∀ client value, register.phase client = .holding value →
    ∃ chain, chain.Sublist written ∧ value = start + total change chain + change client

theorem Explained.initial (change : Client → Amount) (start : Amount) :
    Explained change start [] (Register.start Client start) where
  value := ⟨[], .refl _, fun _ => rfl, by simp [Register.start, total]⟩
  held client value holds := by cases holds

variable [DecidableEq Client]

theorem Explained.access {written : List Client} {register next : Register Client Amount}
    {access : Access Client} (explained : Explained change start written register)
    (stepped : step change register access = some next) :
    Explained change start (written ++ writers [access]) next := by
  have held : ∀ client value, next.phase client = .holding value →
      ∃ chain, chain.Sublist (written ++ writers [access]) ∧
        value = start + total change chain + change client := by
    intro client value holds
    rcases held_cases stepped holds with before | ⟨_, rfl⟩
    · rcases explained.held client value before with ⟨chain, part, sum⟩
      exact ⟨chain, part.trans (List.sublist_append_left _ _), sum⟩
    · rcases explained.value with ⟨chain, part, _, sum⟩
      exact ⟨chain, part.trans (List.sublist_append_left _ _), by rw [sum]⟩
  cases access with
  | read client =>
      rcases step_read.mp stepped with ⟨_, rfl⟩
      rw [writers_cons_read, writers_nil, List.append_nil] at held ⊢
      exact ⟨explained.value, held⟩
  | write client =>
      rcases step_write.mp stepped with ⟨value, holds, rfl⟩
      rcases explained.held client value holds with ⟨chain, part, sum⟩
      refine ⟨⟨chain ++ [client], part.append (.refl _), by simp, ?_⟩, held⟩
      rw [total_append, total_singleton, Register.put_value, sum, add_assoc]

theorem Explained.lasts {written : List Client} {register final : Register Client Amount}
    {accesses : List (Access Client)} (explained : Explained change start written register)
    (performed : run (step change) register accesses = some final) :
    Explained change start (written ++ writers accesses) final := by
  induction accesses generalizing register written with
  | nil =>
      cases performed
      simpa [writers] using explained
  | cons access accesses induction =>
      rcases run_cons_eq_some.mp performed with ⟨next, stepped, rest⟩
      have continued := induction (explained.access stepped) rest
      rwa [List.append_assoc, writers, writers, ← List.filterMap_append] at continued

/-! ## Every chain can be had -/

variable (change) (register : Register Client Amount)

theorem exists_reads {clients : List Client} (distinct : clients.Nodup)
    (waits : ∀ client ∈ clients, register.phase client = .waiting) :
    ∃ final, run (step change) register (clients.map .read) = some final ∧
      final.value = register.value ∧
      (∀ client ∈ clients, final.phase client = .holding (register.value + change client)) ∧
      ∀ client, client ∉ clients → final.phase client = register.phase client := by
  induction clients generalizing register with
  | nil => exact ⟨register, rfl, rfl, by simp, fun _ _ => rfl⟩
  | cons client clients induction =>
      rcases List.nodup_cons.mp distinct with ⟨outside, distinct⟩
      have stepped : step change register (.read client) = some _ :=
        step_read.mpr ⟨waits client List.mem_cons_self, rfl⟩
      have others : ∀ other ∈ clients, other ≠ client := fun other member same =>
        outside (same ▸ member)
      rcases induction _ distinct fun other member =>
          (Register.advance_other (others other member) register
            (.holding (register.value + change client))).trans
            (waits other (List.mem_cons_of_mem _ member)) with
        ⟨final, performed, value, held, kept⟩
      refine ⟨final, run_cons_eq_some.mpr ⟨_, stepped, performed⟩, value, ?_, ?_⟩
      · intro other member
        rcases List.mem_cons.mp member with rfl | member
        · rw [kept other outside, Register.advance_same]
        · exact held other member
      · intro other absent
        simp only [List.mem_cons, not_or] at absent
        rw [kept other absent.2, Register.advance_other absent.1]

theorem exists_writes {clients : List Client} (distinct : clients.Nodup)
    (holds : ∀ client ∈ clients, ∃ value, register.phase client = .holding value) :
    ∃ final, run (step change) register (clients.map .write) = some final ∧
      ∀ client, client ∉ clients → final.phase client = register.phase client := by
  induction clients generalizing register with
  | nil => exact ⟨register, rfl, fun _ _ => rfl⟩
  | cons client clients induction =>
      rcases List.nodup_cons.mp distinct with ⟨outside, distinct⟩
      rcases holds client List.mem_cons_self with ⟨value, held⟩
      have stepped : step change register (.write client) = some _ :=
        step_write.mpr ⟨value, held, rfl⟩
      have others : ∀ other ∈ clients, other ≠ client := fun other member same =>
        outside (same ▸ member)
      rcases induction _ distinct fun other member => by
          rw [Register.put_other (others other member)]
          exact holds other (List.mem_cons_of_mem _ member) with
        ⟨final, performed, kept⟩
      refine ⟨final, run_cons_eq_some.mpr ⟨_, stepped, performed⟩, ?_⟩
      intro other absent
      simp only [List.mem_cons, not_or] at absent
      rw [kept other absent.2, Register.put_other absent.1]

theorem exists_turns {clients : List Client} (distinct : clients.Nodup)
    (waits : ∀ client ∈ clients, register.phase client = .waiting) :
    ∃ final, run (step change) register (turns clients) = some final ∧
      final.value = register.value + total change clients := by
  induction clients generalizing register with
  | nil => exact ⟨register, rfl, by simp [total]⟩
  | cons client clients induction =>
      rcases List.nodup_cons.mp distinct with ⟨outside, distinct⟩
      have others : ∀ other ∈ clients, other ≠ client := fun other member same =>
        outside (same ▸ member)
      have reads : step change register (.read client) = some _ :=
        step_read.mpr ⟨waits client List.mem_cons_self, rfl⟩
      have holds := register.advance_same client (.holding (register.value + change client))
      have writes : step change (register.advance client _) (.write client) = some _ :=
        step_write.mpr ⟨_, holds, rfl⟩
      rcases induction _ distinct fun other member => by
          rw [Register.put_other (others other member),
            Register.advance_other (others other member)]
          exact waits other (List.mem_cons_of_mem _ member) with
        ⟨final, performed, value⟩
      refine ⟨final, run_cons_eq_some.mpr ⟨_, reads, run_cons_eq_some.mpr
        ⟨_, writes, performed⟩⟩, ?_⟩
      rw [value, Register.put_value, total, total, List.map_cons, List.sum_cons, add_assoc]

variable {change}

/-- The values that clients can leave when each has written once are the start with the
changes of some of them, of at least one if there is one. -/
theorem leaves_iff {clients : List Client} (distinct : clients.Nodup) (value : Amount) :
    (∃ accesses final, run (step change) (Register.start Client start) accesses = some final ∧
      (∀ access ∈ accesses, access.client ∈ clients) ∧ (writers accesses).Perm clients ∧
      final.value = value) ↔
    ∃ chain, chain.Sublist clients ∧ (chain = [] → clients = []) ∧
      value = start + total change chain := by
  constructor
  · rintro ⟨accesses, final, performed, _, perm, rfl⟩
    rcases ((Explained.initial change start).lasts performed).value with ⟨chain, part, some', sum⟩
    rw [List.nil_append] at part some'
    -- the chain in the order in which the clients are listed
    rcases part.subperm.trans perm.subperm with ⟨listed, same, inside⟩
    refine ⟨listed, inside, ?_, ?_⟩
    · rintro rfl
      have empty := some' (List.nil_perm.mp same)
      rw [empty] at perm
      exact List.nil_perm.mp perm
    · rw [sum]
      exact congrArg (start + ·) (same.map change).sum_eq.symm
  · rintro ⟨chain, part, some', rfl⟩
    rcases part.exists_perm_append with ⟨others, split⟩
    cases chain with
    | nil =>
        cases some' rfl
        exact ⟨[], _, rfl, by simp, .nil, by simp [Register.start, total]⟩
    | cons first rest =>
        -- the others first, then the chain
        have arranged : clients.Perm (others ++ [first] ++ rest) := by
          rw [← List.append_cons]
          exact split.trans List.perm_append_comm
        have both := List.nodup_append.mp (arranged.nodup_iff.mp distinct)
        -- everybody outside the chain reads with the first of it and writes before it
        have group := List.nodup_append.mp both.1
        rcases exists_reads change (Register.start Client start) both.1
          fun _ _ => rfl with ⟨read, reads, _, held, kept⟩
        rcases exists_writes change read group.1
          fun client member => ⟨_, held client (List.mem_append_left _ member)⟩ with
          ⟨written, writes, left⟩
        have outside : first ∉ others := fun member =>
          group.2.2 first member first List.mem_cons_self rfl
        have holds : written.phase first = .holding (start + change first) :=
          (left first outside).trans (held first (by simp))
        have last : step change written (.write first) = some _ :=
          step_write.mpr ⟨_, holds, rfl⟩
        have waits : ∀ client ∈ rest,
            (written.put first (start + change first)).phase client = .waiting := by
          intro client member
          have apart : client ∉ others ++ [first] := fun inside =>
            both.2.2 client inside client member rfl
          have notFirst : client ≠ first := fun same => apart (by simp [same])
          rw [Register.put_other notFirst, left client fun inside => apart (by simp [inside]),
            kept client apart]
          rfl
        rcases exists_turns change _ both.2.1 waits with ⟨final, turned, value⟩
        refine ⟨_, final, run_append_of reads (run_append_of writes
          (run_cons_eq_some.mpr ⟨_, last, turned⟩)), ?_, ?_, ?_⟩
        · intro access member
          rw [arranged.mem_iff]
          rcases List.mem_append.mp member with member | member
          · rcases List.mem_map.mp member with ⟨client, inside, rfl⟩
            exact List.mem_append_left _ inside
          · rcases List.mem_append.mp member with member | member
            · rcases List.mem_map.mp member with ⟨client, inside, rfl⟩
              exact List.mem_append_left _ (List.mem_append_left _ inside)
            · rcases List.mem_cons.mp member with rfl | member
              · simp [Access.client]
              · exact List.mem_append_right _ (client_mem_of_turns member)
        · simp only [writers_append, writers_map_read, writers_map_write, List.nil_append]
          rw [writers_cons_write, writers_turns, List.append_cons]
          exact arranged.symm
        · rw [value, Register.put_value, total, total, List.map_cons, List.sum_cons, add_assoc]

end Chains

/-! ## When nothing is lost -/

section Losses

variable [AddCommGroup Amount] [LinearOrder Amount] {change : Client → Amount}

/-- A client writes only while the value is the one it has read. -/
def Fresh (change : Client → Amount) (register : Register Client Amount) :
    Access Client → Prop
  | .read _ => True
  | .write client => register.phase client = .holding (register.value + change client)

/-- While changes only lower the value, it does not fall below `bound`, the start with all
changes written; what is held will lie above the bound unless it was read from the value. -/
structure Bounded (change : Client → Amount) (bound : Amount) (register : Register Client Amount) :
    Prop where
  value : bound ≤ register.value
  held : ∀ client value, register.phase client = .holding value →
    value = register.value + change client ∨ bound + change client < value

theorem Bounded.start (change : Client → Amount) (value : Amount) :
    Bounded change value (Register.start Client value) where
  value := le_refl value
  held client value holds := by cases holds

variable [DecidableEq Client]

theorem Bounded.read {bound : Amount} {register next : Register Client Amount} {client : Client}
    (bounded : Bounded change bound register)
    (stepped : step change register (.read client) = some next) :
    Bounded change bound next := by
  have origins := fun other value => @held_cases _ _ _ _ _ _ _ other _ value stepped
  rcases step_read.mp stepped with ⟨_, rfl⟩
  refine ⟨bounded.value, fun other value holds => ?_⟩
  rcases origins other value holds with before | ⟨_, fresh⟩
  · exact bounded.held other value before
  · exact .inl fresh

variable [IsOrderedAddMonoid Amount]

theorem Bounded.write {bound value : Amount} {register : Register Client Amount} {client : Client}
    (lowers : change client < 0) (bounded : Bounded change bound register)
    (holds : register.phase client = .holding value) :
    Bounded change (bound + change client) (register.put client value) := by
  have lower : bound + change client ≤ value := by
    rcases bounded.held client value holds with rfl | above
    · exact add_le_add_left bounded.value _
    · exact above.le
  refine ⟨lower, fun other held heldBy => .inr ?_⟩
  by_cases own : other = client
  · subst own
    rw [Register.put_same] at heldBy
    cases heldBy
  · rw [Register.put_other own] at heldBy
    have less : bound + change client < bound := add_lt_of_neg_right _ lowers
    rcases bounded.held other held heldBy with rfl | above
    · exact add_lt_add_left (less.trans_le bounded.value) _
    · exact (add_lt_add_left less _).trans above

/-- From a value that shows all changes written so far, the value goes on to show them all if
and only if every client writes while the value is the one it has read. -/
theorem Bounded.shows_iff {bound : Amount} {register final : Register Client Amount}
    {accesses : List (Access Client)} (lowers : ∀ client ∈ writers accesses, change client < 0)
    (bounded : Bounded change bound register)
    (performed : run (step change) register accesses = some final) :
    final.value = bound + total change (writers accesses) ↔
      register.value = bound ∧ Meets (step change) (Fresh change) register accesses := by
  induction accesses generalizing register bound with
  | nil =>
      cases performed
      simp [writers, total, Meets]
  | cons access accesses induction =>
      rcases run_cons_eq_some.mp performed with ⟨next, stepped, rest⟩
      rw [meets_cons stepped]
      cases access with
      | read client =>
          have continued := induction lowers (bounded.read stepped) rest
          rcases step_read.mp stepped with ⟨_, rfl⟩
          rw [writers_cons_read, Fresh, true_and]
          exact continued
      | write client =>
          rcases step_write.mp stepped with ⟨value, holds, rfl⟩
          rw [writers_cons_write] at lowers ⊢
          rcases List.forall_mem_cons.mp lowers with ⟨lower, lowers⟩
          have continued := induction lowers (bounded.write lower holds) rest
          rw [add_assoc] at continued
          rw [total, List.map_cons, List.sum_cons, ← total, continued,
            ← and_assoc]
          refine and_congr_left fun _ => ?_
          rw [Register.put_value, Fresh, holds, Phase.holding.injEq]
          constructor
          · rintro rfl
            rcases bounded.held client _ holds with fresh | above
            · exact ⟨(add_right_cancel fresh).symm, fresh⟩
            · exact absurd above (lt_irrefl _)
          · rintro ⟨rfl, fresh⟩
            exact fresh

end Losses

end AssassinGame.Contention
