import NamedRelay.Proofs.Ring

/-!
# Rings as bounded queues

Whatever is asked of a new ring, one call after the other, it answers as a plain list that may hold
as many values as the ring has room for. The cell that stays empty is not seen from outside.
-/

namespace NamedRelay

variable {α : Type}

/-- What is asked of a queue. -/
inductive QueueCall (α : Type) where
  | push (value : α)
  | pop
  | front

/-- A queue takes a value or hands it back, or it gives or shows the oldest value, if there is
one. -/
inductive QueueAnswer (α : Type) where
  | taken
  | returned (value : α)
  | oldest (value : Option α)

/-- The answers to calls one after the other, and the state that they leave. -/
def answerAll {S : Type} (answer : S → QueueCall α → QueueAnswer α × S) :
    S → List (QueueCall α) → List (QueueAnswer α) × S
  | s, [] => ([], s)
  | s, call :: calls =>
    let (first, s) := answer s call
    let (others, s) := answerAll answer s calls
    (first :: others, s)

/-- How a plain list answers that holds at most `capacity` values. -/
def answerOfList (capacity : Nat) (values : List α) : QueueCall α → QueueAnswer α × List α
  | .push value =>
    if values.length < capacity then (.taken, values ++ [value]) else (.returned value, values)
  | .pop => (.oldest values.head?, values.tail)
  | .front => (.oldest values.head?, values)

/-- Two queues that answer each call alike, and stay alike, answer any calls alike. -/
lemma answerAll_alike {S T : Type} {f : S → QueueCall α → QueueAnswer α × S}
    {g : T → QueueCall α → QueueAnswer α × T} {Alike : S → T → Prop}
    (hstep : ∀ s t, Alike s t → ∀ call,
      (f s call).1 = (g t call).1 ∧ Alike (f s call).2 (g t call).2)
    {s : S} {t : T} (h : Alike s t) (calls : List (QueueCall α)) :
    (answerAll f s calls).1 = (answerAll g t calls).1 ∧
      Alike (answerAll f s calls).2 (answerAll g t calls).2 := by
  induction calls generalizing s t with
  | nil => exact ⟨rfl, h⟩
  | cons call calls ih =>
    obtain ⟨hfirst, hnext⟩ := hstep s t h call
    obtain ⟨hothers, hlast⟩ := ih hnext
    refine ⟨?_, hlast⟩
    change (f s call).1 :: (answerAll f (f s call).2 calls).1 = _
    rw [hfirst, hothers]
    rfl

namespace Ring

variable {capacity : Nat}

/-- The ring as a queue. A value that is handed back leaves it as it is. -/
def answer (q : Ring α capacity) : QueueCall α → QueueAnswer α × Ring α capacity
  | .push value =>
    match q.push value with
    | .ok q' => (.taken, q')
    | .error value => (.returned value, q)
  | .pop => (.oldest q.pop.1, q.pop.2)
  | .front => (.oldest q.front?, q)

/-- The ring holds these values, from the oldest to the newest. -/
structure Holds (q : Ring α capacity) (values : List α) : Prop where
  filled : q.Filled
  toList : q.toList = values

namespace Holds

variable {q : Ring α capacity} {values : List α}

lemma empty : ({} : Ring α capacity).Holds [] where
  filled := filled_empty
  toList := by simp [Ring.toList, len]

lemma len_eq (h : q.Holds values) : q.len = values.length := by
  rw [← h.toList, length_toList h.filled]

lemma length_le (h : q.Holds values) : values.length ≤ capacity :=
  h.len_eq ▸ q.len_le

lemma isEmpty_iff (h : q.Holds values) : q.isEmpty = true ↔ values = [] := by
  rw [q.isEmpty_iff, h.len_eq, List.length_eq_zero_iff]

lemma isFull_iff (h : q.Holds values) : q.isFull = true ↔ values.length = capacity := by
  rw [q.isFull_iff, h.len_eq]

lemma push_of_full (h : q.Holds values) (hfull : ¬values.length < capacity) (value : α) :
    q.push value = .error value := by
  have hle := h.length_le
  exact Ring.push_of_full (by rw [h.len_eq]; omega) value

lemma push_of_room (h : q.Holds values) (hroom : values.length < capacity) (value : α) :
    q.push value = .ok (q.pushed value) ∧ (q.pushed value).Holds (values ++ [value]) := by
  have hlen : q.len ≠ capacity := h.len_eq ▸ Nat.ne_of_lt hroom
  refine ⟨push_of_not_full hlen value, h.filled.pushed hlen value, ?_⟩
  rw [toList_pushed hlen, h.toList]

lemma push_eq_ok_iff (h : q.Holds values) (value : α) :
    (∃ q', q.push value = .ok q') ↔ values.length < capacity := by
  by_cases hroom : values.length < capacity
  · exact iff_of_true ⟨_, (h.push_of_room hroom value).1⟩ hroom
  · rw [h.push_of_full hroom value]
    exact iff_of_false (by simp) hroom

/-- Taking a value out gives the oldest one, and what is left are the others. -/
lemma pop (h : q.Holds values) : q.pop.1 = values.head? ∧ q.pop.2.Holds values.tail := by
  by_cases hempty : q.len = 0
  · have hnil : values = [] := by
      rw [← List.length_eq_zero_iff, ← h.len_eq, hempty]
    subst hnil
    rw [pop_of_empty hempty]
    exact ⟨rfl, h⟩
  · obtain ⟨value, hpop, hlist, hfilled⟩ := h.filled.pop hempty
    rw [hpop, ← h.toList, hlist]
    exact ⟨rfl, hfilled, rfl⟩

/-- The value that is shown is the one that is taken out next. -/
lemma front? (h : q.Holds values) : q.front? = values.head? := by
  have hpop : q.front? = q.pop.1 := by
    unfold Ring.front? Ring.pop
    split <;> rfl
  rw [hpop, h.pop.1]

lemma answer (h : q.Holds values) (call : QueueCall α) :
    (q.answer call).1 = (answerOfList capacity values call).1 ∧
      (q.answer call).2.Holds (answerOfList capacity values call).2 := by
  cases call with
  | push value =>
    simp only [Ring.answer, answerOfList]
    by_cases hroom : values.length < capacity
    · obtain ⟨hpush, hholds⟩ := h.push_of_room hroom value
      rw [hpush, if_pos hroom]
      exact ⟨rfl, hholds⟩
    · rw [h.push_of_full hroom value, if_neg hroom]
      exact ⟨rfl, h⟩
  | pop => exact ⟨congrArg QueueAnswer.oldest h.pop.1, h.pop.2⟩
  | front => exact ⟨congrArg QueueAnswer.oldest h.front?, h⟩

end Holds

end Ring

/-- A ring of any size with at least one cell answers any calls as a plain list does that holds at
most one value less than the ring has cells. Whatever calls have led to a state of the ring, it
tells its length, whether it is empty and whether it is full as the list has it, it takes a value
unless the list has no room, and it has a value to give and to show unless the list is empty. -/
theorem rings_answer_as_bounded_lists (capacity : Nat) (calls : List (QueueCall α)) :
    let (answers, q) := answerAll Ring.answer ({} : Ring α capacity) calls
    let (expected, values) := answerAll (answerOfList capacity) [] calls
    answers = expected ∧ q.toList = values ∧ values.length ≤ capacity ∧
      q.len = values.length ∧ (q.isEmpty = true ↔ values = []) ∧
      (q.isFull = true ↔ values.length = capacity) ∧
      (∀ value, ((∃ q', q.push value = .ok q') ↔ values.length < capacity)) ∧
      (q.pop.1 = none ↔ values = []) ∧ (q.front? = none ↔ values = []) := by
  obtain ⟨hanswers, hholds⟩ := answerAll_alike (f := Ring.answer) (g := answerOfList capacity)
    (fun _ _ h call => Ring.Holds.answer h call) Ring.Holds.empty calls
  refine ⟨hanswers, hholds.toList, hholds.length_le, hholds.len_eq, hholds.isEmpty_iff,
    hholds.isFull_iff, hholds.push_eq_ok_iff, ?_, ?_⟩
  · rw [hholds.pop.1, List.head?_eq_none_iff]
  · rw [hholds.front?, List.head?_eq_none_iff]

end NamedRelay
