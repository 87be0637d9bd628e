import Mathlib.Data.List.Basic
import Mathlib.Tactic.Common
import NamedRelay.Relay.Ageing

/-!
# Waiters of a pending interest

The faces that wait on an entry, and what joining, forgetting a face and ageing do to them.
-/

namespace NamedRelay.PendingInterest

/-- The faces that wait. -/
def waiting (e : PendingInterest) : List FaceId :=
  e.waiters.map Waiter.face

lemma any_waiters_iff (e : PendingInterest) (id : FaceId) :
    e.waiters.any (·.face == id) = true ↔ id ∈ e.waiting := by
  simp [waiting]

/-- Refreshing a waiter keeps the order of those who wait, and a new one comes last. -/
lemma waiting_addWaiter (e : PendingInterest) (id : FaceId) (now : Timestamp) :
    (e.addWaiter id now).waiting = if id ∈ e.waiting then e.waiting else e.waiting ++ [id] := by
  unfold addWaiter
  by_cases h : id ∈ e.waiting
  · rw [if_pos ((e.any_waiters_iff id).mpr h), if_pos h]
    have hany := (e.any_waiters_iff id).mpr h
    have hlt : e.waiters.findIdx (·.face == id) < e.waiters.length := by
      rw [List.findIdx_lt_length]
      simpa using hany
    have hface : e.waiters[e.waiters.findIdx (·.face == id)].face = id := by
      simpa using List.findIdx_getElem (w := hlt)
    apply List.ext_getElem?
    intro j
    simp only [waiting, List.getElem?_map, List.getElem?_modify]
    split
    · rename_i hj
      subst hj
      rw [List.getElem?_eq_getElem hlt]
      simp [hface]
    · simp
  · rw [if_neg (fun hany => h ((e.any_waiters_iff id).mp hany)), if_neg h]
    simp [waiting]

lemma mem_waiting_addWaiter {e : PendingInterest} {id j : FaceId} {now : Timestamp} :
    j ∈ (e.addWaiter id now).waiting ↔ j ∈ e.waiting ∨ j = id := by
  rw [waiting_addWaiter]
  split
  · rename_i h
    constructor
    · exact Or.inl
    · rintro (hj | rfl)
      · exact hj
      · exact h
  · simp

/-- Joining changes nothing but the waiters. -/
lemma addWaiter_eq (e : PendingInterest) (id : FaceId) (now : Timestamp) :
    e.addWaiter id now = { e with waiters := (e.addWaiter id now).waiters } := by
  unfold addWaiter
  split <;> rfl

lemma waiting_withoutFace (e : PendingInterest) (id : FaceId) :
    (e.withoutFace id).waiting = e.waiting.filter (· != id) := by
  unfold waiting withoutFace
  rw [List.filter_map]
  rfl

lemma forgetFace?_eq_some {e e' : PendingInterest} {id : FaceId} :
    e.forgetFace? id = some e' ↔ e.withoutFace id = e' ∧ e'.isAbandoned = false := by
  unfold forgetFace?
  dsimp only
  split
  · rename_i hgone
    constructor
    · intro h
      cases h
    · rintro ⟨rfl, hkept⟩
      rw [hgone] at hkept
      cases hkept
  · rename_i hkept
    constructor
    · intro h
      cases h
      exact ⟨rfl, Bool.eq_false_iff.mpr hkept⟩
    · rintro ⟨rfl, -⟩
      rfl

lemma isAbandoned_eq_false_iff (e : PendingInterest) :
    e.isAbandoned = false ↔ e.waiting ≠ [] ∨ e.isLocal = true := by
  unfold isAbandoned waiting
  cases e.waiters
  · simp
  · simp

lemma age?_eq_some {e e' : PendingInterest} {maxRetransmits : UInt32} {now : Timestamp} :
    e.age? maxRetransmits now = some e' ↔
      e.isExpired maxRetransmits now = false ∧ { e with retries := e.retries + 1 } = e' := by
  unfold age?
  split
  · rename_i h
    simp [h]
  · rename_i h
    simp [h]

end NamedRelay.PendingInterest
