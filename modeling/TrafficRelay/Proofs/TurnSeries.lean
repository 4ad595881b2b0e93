import TrafficRelay.Proofs.TurnPlacement

/-!
# Series of turns

A router that takes turns is asked again and again, with outputs that may change from
call to call.  Which output it selects depends on the number of earlier calls that had
outputs to choose from, up to the size of the counter.  Where the outputs stay the same,
the turns are shared evenly until the counter wraps, and each time it does so an output
may get ahead by one more.
-/

namespace TrafficRelay

/-- How many of the first turns of a wrapping counter fall on a position. -/
def turnsAt (outputs position turns : Nat) : Nat :=
  (List.range turns).countP fun turn => Counter.reading turn % outputs = position

theorem Counter.reading_of_lt {number : Nat} (small : number < 2 ^ 64) :
    reading number = number :=
  Nat.mod_eq_of_lt small

theorem Counter.reading_add_size (number : Nat) :
    reading (2 ^ 64 + number) = reading number :=
  Nat.add_mod_left (2 ^ 64) number

theorem turnsAt_add (outputs position first turns : Nat) :
    turnsAt outputs position (first + turns) =
      turnsAt outputs position first + (List.range turns).countP fun turn =>
        Counter.reading (first + turn) % outputs = position := by
  rw [turnsAt, List.range_add, List.countP_append, List.countP_map]
  rfl

theorem turnsAt_add_size (outputs position turns : Nat) :
    turnsAt outputs position (2 ^ 64 + turns) =
      turnsAt outputs position (2 ^ 64) + turnsAt outputs position turns := by
  rw [turnsAt_add]
  simp only [Counter.reading_add_size, turnsAt]

/-- Until the counter wraps, the turns of a position are those that leave it as their
remainder. -/
theorem turnsAt_of_le {outputs position turns : Nat} (inRange : position < outputs)
    (few : turns ≤ 2 ^ 64) :
    turnsAt outputs position turns =
      turns / outputs + if position < turns % outputs then 1 else 0 := by
  have unwrapped : turnsAt outputs position turns = (List.range turns).countP fun turn =>
      (0 + turn) % outputs = (0 + position) % outputs := by
    apply List.countP_congr
    intro turn member
    have small : turn < 2 ^ 64 := Nat.lt_of_lt_of_le (List.mem_range.mp member) few
    rw [Counter.reading_of_lt small, Nat.zero_add, Nat.zero_add, Nat.mod_eq_of_lt inRange]
  rw [unwrapped, countP_turns_eq inRange]

/-- An earlier position gets no fewer turns than a later one, and at most one more for
each time that the counter starts from zero. -/
theorem turnsAt_between {outputs earlier later : Nat} (order : earlier ≤ later)
    (inRange : later < outputs) (turns : Nat) :
    turnsAt outputs later turns ≤ turnsAt outputs earlier turns ∧
      turnsAt outputs earlier turns ≤ turnsAt outputs later turns + (turns / 2 ^ 64 + 1) := by
  have unwrapped {turns : Nat} (few : turns ≤ 2 ^ 64) :
      turnsAt outputs later turns ≤ turnsAt outputs earlier turns ∧
        turnsAt outputs earlier turns ≤ turnsAt outputs later turns + 1 := by
    rw [turnsAt_of_le inRange few, turnsAt_of_le (Nat.lt_of_le_of_lt order inRange) few]
    split <;> split <;> omega
  induction turns using Nat.strong_induction_on with
  | _ turns induction =>
    rcases Nat.lt_or_ge turns (2 ^ 64) with few | many
    · obtain ⟨noFewer, oneMore⟩ := unwrapped (Nat.le_of_lt few)
      rw [Nat.div_eq_of_lt few]
      exact ⟨noFewer, oneMore⟩
    · obtain ⟨rest, rfl⟩ := Nat.exists_eq_add_of_le many
      have shorter : rest < 2 ^ 64 + rest := Nat.lt_add_of_pos_left (by decide)
      obtain ⟨noFewer, oneMore⟩ := unwrapped (Nat.le_refl (2 ^ 64))
      obtain ⟨restNoFewer, restMore⟩ := induction rest shorter
      rw [turnsAt_add_size, turnsAt_add_size, Nat.add_div_left rest (by decide)]
      constructor
      · exact Nat.add_le_add noFewer restNoFewer
      · omega

/-- Of turns in a row, which may begin anywhere, no position gets many more than
another. -/
theorem countP_reading_le {outputs position other : Nat} (inRange : position < outputs)
    (otherInRange : other < outputs) {first : Nat} (turns : Nat) :
    ((List.range turns).countP fun turn =>
        Counter.reading (first + turn) % outputs = position) ≤
      ((List.range turns).countP fun turn =>
        Counter.reading (first + turn) % outputs = other) +
        ((first + turns) / 2 ^ 64 + 1) := by
  have here := turnsAt_add outputs position first turns
  have there := turnsAt_add outputs other first turns
  have fewer : first / 2 ^ 64 ≤ (first + turns) / 2 ^ 64 :=
    Nat.div_le_div_right (Nat.le_add_right first turns)
  rcases Nat.le_total position other with order | order
  · have before := turnsAt_between order otherInRange first
    have after := turnsAt_between order otherInRange (first + turns)
    omega
  · have before := turnsAt_between order inRange first
    have after := turnsAt_between order inRange (first + turns)
    omega

namespace Router

variable {α : Type}

/-- What a router selects in a series of calls, each for a session and with outputs to
choose from, and the router after them. -/
def selectAll (router : Router) : List (SessionKey × List α) → List (List α) × Router
  | [] => ([], router)
  | (session, outputs) :: calls =>
      let (selected, router) := router.select session outputs
      let (others, last) := router.selectAll calls
      (selected :: others, last)

/-- The number of calls that have outputs to choose from. -/
def turnsTaken (calls : List (SessionKey × List α)) : Nat :=
  calls.countP fun (_, outputs) => !outputs.isEmpty

theorem selectAll_cons (router : Router) (session : SessionKey) (outputs : List α)
    (calls : List (SessionKey × List α)) :
    router.selectAll ((session, outputs) :: calls) =
      ((router.select session outputs).1 ::
          ((router.select session outputs).2.selectAll calls).1,
        ((router.select session outputs).2.selectAll calls).2) := rfl

theorem select_nil (router : Router) (session : SessionKey) :
    router.select session ([] : List α) = ([], router) := rfl

theorem turnsTaken_cons_nil (session : SessionKey) (calls : List (SessionKey × List α)) :
    turnsTaken ((session, []) :: calls) = turnsTaken calls :=
  List.countP_cons_of_neg (by simp)

theorem turnsTaken_cons {outputs : List α} (present : outputs ≠ []) (session : SessionKey)
    (calls : List (SessionKey × List α)) :
    turnsTaken ((session, outputs) :: calls) = turnsTaken calls + 1 :=
  List.countP_cons_of_pos (by simpa using present)

theorem selectAll_append (router : Router) (before after : List (SessionKey × List α)) :
    router.selectAll (before ++ after) =
      ((router.selectAll before).1 ++ ((router.selectAll before).2.selectAll after).1,
        ((router.selectAll before).2.selectAll after).2) := by
  induction before generalizing router with
  | nil => rfl
  | cons call before induction =>
      obtain ⟨session, outputs⟩ := call
      rw [List.cons_append, selectAll_cons, selectAll_cons, induction]
      rfl

theorem length_selectAll (router : Router) (calls : List (SessionKey × List α)) :
    (router.selectAll calls).1.length = calls.length := by
  induction calls generalizing router with
  | nil => rfl
  | cons call calls induction => exact congrArg Nat.succ (induction _)

theorem selectAll_policy (router : Router) (calls : List (SessionKey × List α)) :
    (router.selectAll calls).2.policy = router.policy := by
  induction calls generalizing router with
  | nil => rfl
  | cons call calls induction =>
      exact (induction _).trans (router.select_policy call.1 call.2)

/-- What is selected in a call depends on the router that the calls before it leave. -/
theorem getElem?_selectAll (router : Router) (before after : List (SessionKey × List α))
    (session : SessionKey) (outputs : List α) :
    (router.selectAll (before ++ (session, outputs) :: after)).1[before.length]? =
      some ((router.selectAll before).2.select session outputs).1 := by
  have place : before.length = (router.selectAll before).1.length :=
    (router.length_selectAll before).symm
  rw [selectAll_append, place, List.getElem?_append_right (Nat.le_refl _), Nat.sub_self]
  rfl

/-- The counter moves on by one for every call that has outputs to choose from. -/
theorem toNat_turns_selectAll {router : Router} (roundRobin : router.policy = .roundRobin)
    {place : Nat} (counted : router.turns.toNat = Counter.reading place)
    (calls : List (SessionKey × List α)) :
    (router.selectAll calls).2.turns.toNat = Counter.reading (place + turnsTaken calls) := by
  induction calls generalizing router place with
  | nil => exact counted
  | cons call calls induction =>
      obtain ⟨session, outputs⟩ := call
      by_cases absent : outputs = []
      · subst absent
        rw [selectAll_cons, select_nil, turnsTaken_cons_nil]
        exact induction roundRobin counted
      · have later := @induction { router with turns := router.turns.increment } roundRobin
          _ (Counter.toNat_increment counted)
        rw [selectAll_cons, select_roundRobin roundRobin session absent, later,
          turnsTaken_cons absent, Nat.add_assoc, Nat.add_comm 1]

/-- Where the outputs stay the same, every call takes a turn. -/
theorem selectAll_of_same {router : Router} (roundRobin : router.policy = .roundRobin)
    {place : Nat} (counted : router.turns.toNat = Counter.reading place) {outputs : List α}
    (present : outputs ≠ []) {calls : List (SessionKey × List α)}
    (same : ∀ call ∈ calls, call.2 = outputs) :
    (router.selectAll calls).1 = (List.range calls.length).map fun turn =>
      outputs[Counter.reading (place + turn) % outputs.length]?.toList := by
  induction calls generalizing router place with
  | nil => rfl
  | cons call calls induction =>
      obtain ⟨session, here⟩ := call
      obtain ⟨rfl : here = outputs, others⟩ := List.forall_mem_cons.mp same
      have later := @induction { router with turns := router.turns.increment } roundRobin _
        (Counter.toNat_increment counted) others
      rw [selectAll_cons, select_roundRobin roundRobin session present, List.length_cons,
        List.range_succ_eq_map, List.map_cons, List.map_map]
      simp only [later, counted, Nat.add_zero, Function.comp_def, Nat.succ_eq_add_one,
        ← Nat.add_assoc, Nat.add_right_comm place 1]

theorem count_selectAll [DecidableEq α] {router : Router}
    (roundRobin : router.policy = .roundRobin) {outputs : List α} (distinct : outputs.Nodup)
    {calls : List (SessionKey × List α)} (same : ∀ call ∈ calls, call.2 = outputs)
    {position : Nat} (inRange : position < outputs.length) :
    (router.selectAll calls).1.count [outputs[position]] =
      (List.range calls.length).countP fun turn =>
        Counter.reading (router.turns.toNat + turn) % outputs.length = position := by
  have positive : 0 < outputs.length := Nat.zero_lt_of_lt inRange
  have present : outputs ≠ [] := List.ne_nil_of_length_pos positive
  rw [selectAll_of_same roundRobin router.turns.reading_toNat present same, List.count,
    List.countP_map]
  apply List.countP_congr
  intro turn member
  have chosen := List.getElem?_eq_getElem
    (Nat.mod_lt (Counter.reading (router.turns.toNat + turn)) positive)
  simp [chosen, distinct.getElem_inj_iff]

/-- A call without outputs selects nothing and takes no turn; any other takes the output
of its turn. -/
theorem getElem?_selectAll_of_roundRobin {router : Router}
    (roundRobin : router.policy = .roundRobin) (before after : List (SessionKey × List α))
    (session : SessionKey) (outputs : List α) :
    let turn := Counter.reading (router.turns.toNat + turnsTaken before)
    let selected := (router.selectAll (before ++ (session, outputs) :: after)).1[before.length]?
    (outputs = [] → selected = some [] ∧
      (router.selectAll (before ++ [(session, outputs)])).2 = (router.selectAll before).2) ∧
    (outputs ≠ [] → ∃ inRange : turn % outputs.length < outputs.length,
      selected = some [outputs[turn % outputs.length]]) := by
  intro turn selected
  have answer : selected = _ := router.getElem?_selectAll before after session outputs
  have counted : (router.selectAll before).2.turns.toNat = turn :=
    toNat_turns_selectAll roundRobin router.turns.reading_toNat before
  have policy := (router.selectAll_policy before).trans roundRobin
  constructor
  · rintro rfl
    refine ⟨answer, ?_⟩
    rw [selectAll_append]
    rfl
  · intro present
    have inRange := Nat.mod_lt turn (List.length_pos_iff.mpr present)
    refine ⟨inRange, ?_⟩
    rw [answer, select_roundRobin policy session present, counted,
      List.getElem?_eq_getElem inRange]
    rfl

/-- Whatever came before, two outputs among the same ones are selected almost equally
often. -/
theorem count_selectAll_le [DecidableEq α] {router : Router}
    (roundRobin : router.policy = .roundRobin) {outputs : List α} (distinct : outputs.Nodup)
    {calls : List (SessionKey × List α)} (same : ∀ call ∈ calls, call.2 = outputs)
    {output other : α} (member : output ∈ outputs) (otherMember : other ∈ outputs) :
    (router.selectAll calls).1.count [output] ≤ (router.selectAll calls).1.count [other] +
      ((router.turns.toNat + calls.length) / 2 ^ 64 + 1) := by
  obtain ⟨position, inRange, rfl⟩ := List.getElem_of_mem member
  obtain ⟨otherPosition, otherInRange, rfl⟩ := List.getElem_of_mem otherMember
  rw [count_selectAll roundRobin distinct same inRange,
    count_selectAll roundRobin distinct same otherInRange]
  exact countP_reading_le inRange otherInRange calls.length

end Router

/-- A router that takes turns answers every call: with nothing where there are no outputs,
and else with the one output whose turn it is.  The turn is the number of calls with
outputs so far, as far as the counter can hold it, and the counter ends with the number
of all of them.  Between the same outputs the calls are shared evenly, except for one call
and one more for each time that the counter has wrapped.  A new router has taken no turns
as yet. -/
theorem Router.selectAll_takes_turns {α : Type} [DecidableEq α] (router : Router)
    (roundRobin : router.policy = .roundRobin) (calls : List (SessionKey × List α)) :
    let first := router.turns.toNat
    let selections := (router.selectAll calls).1
    selections.length = calls.length ∧
    (∀ before session outputs after, calls = before ++ (session, outputs) :: after →
      let turn := (first + turnsTaken before) % 2 ^ 64
      (outputs = [] → selections[before.length]? = some [] ∧
        (router.selectAll (before ++ [(session, outputs)])).2 = (router.selectAll before).2) ∧
      (outputs ≠ [] → ∃ inRange : turn % outputs.length < outputs.length,
        selections[before.length]? = some [outputs[turn % outputs.length]])) ∧
    (router.selectAll calls).2.turns.toNat = (first + turnsTaken calls) % 2 ^ 64 ∧
    ∀ outputs : List α, outputs.Nodup → (∀ call ∈ calls, call.2 = outputs) →
      ∀ output ∈ outputs, ∀ other ∈ outputs,
        selections.count [output] ≤
          selections.count [other] + ((first + calls.length) / 2 ^ 64 + 1) := by
  intro first selections
  refine ⟨router.length_selectAll calls, ?_,
    toNat_turns_selectAll roundRobin router.turns.reading_toNat calls, ?_⟩
  · rintro before session outputs after rfl
    exact getElem?_selectAll_of_roundRobin roundRobin before after session outputs
  · intro outputs distinct same output member other otherMember
    exact count_selectAll_le roundRobin distinct same member otherMember

/-- The counter stands at its greatest value and wraps after the first of four calls, the
second of which has no outputs.  With three outputs the turns before and after are both
those of the first one. -/
theorem Router.selectAll_takes_turns_wrapping :
    let session : SessionKey := ⟨List.replicate 20 97, rfl⟩
    let router : Router := ⟨.roundRobin, ⟨18446744073709551615⟩⟩
    let calls : List (SessionKey × List Nat) :=
      [(session, [5, 6, 7]), (session, []), (session, [5, 6]), (session, [5, 6, 7])]
    let twice : List (SessionKey × List Nat) := [(session, [5, 6, 7]), (session, [5, 6, 7])]
    router.policy = .roundRobin ∧
      (router.selectAll calls).1[1]? = some [] ∧
      (router.selectAll calls).1[2]? = some [5] ∧
      (router.selectAll calls).1[3]? = some [6] ∧
      (router.selectAll calls).2.turns.toNat = 2 ∧
      (router.selectAll twice).1.count [5] ≤ (router.selectAll twice).1.count [7] + 2 := by
  intro session router calls twice
  obtain ⟨-, answers, counted, -⟩ := Router.selectAll_takes_turns router rfl calls
  obtain ⟨nothing, -⟩ := (answers [(session, [5, 6, 7])] session [] _ rfl).1 rfl
  obtain ⟨_, wrapped⟩ :=
    (answers [(session, [5, 6, 7]), (session, [])] session [5, 6] _ rfl).2 (by decide)
  obtain ⟨_, last⟩ :=
    (answers [(session, [5, 6, 7]), (session, []), (session, [5, 6])] session [5, 6, 7] _
      rfl).2 (by decide)
  have zero : (router.turns.toNat + turnsTaken [(session, [5, 6, 7]), (session, [])]) %
      2 ^ 64 % 2 = 0 := by decide
  have one : (router.turns.toNat +
      turnsTaken [(session, [5, 6, 7]), (session, []), (session, [5, 6])]) %
      2 ^ 64 % 3 = 1 := by decide
  simp only [List.length_cons, List.length_nil, zero] at wrapped
  simp only [List.length_cons, List.length_nil, one] at last
  have shared := (Router.selectAll_takes_turns router rfl twice).2.2.2 [5, 6, 7] (by decide)
    (by simp [twice]) 5 (by decide) 7 (by decide)
  have started : (router.turns.toNat + twice.length) / 2 ^ 64 + 1 = 2 := by decide
  rw [started] at shared
  exact ⟨rfl, nothing, wrapped, last, counted.trans (by decide), shared⟩

end TrafficRelay
