import NamedRelay.Proofs.LiveFaces
import NamedRelay.Proofs.SendingFrame
import NamedRelay.Proofs.SplitHorizon

/-!
# Sending pending interests again

A sweep changes the content store, the pending table and the count of the interests that timed out.
Sending leaves these aside, so it does not matter whether they change before it or afterwards.
A sweep sends each interest that has not expired once, in the order of the table.
-/

namespace NamedRelay.Relay

variable {σ κ : Type}

/-! ## What a sweep changes while it sends -/

/-- What a sweep changes besides sending and before it removes faces. -/
structure Tables where
  store : ContentStore
  pending : PendingTable
  timeouts : UInt64

def tables (r : Relay σ κ) : Tables :=
  ⟨r.store, r.pending, r.counters.interestTimeouts⟩

def withTables (r : Relay σ κ) (t : Tables) : Relay σ κ :=
  { r with
    store := t.store
    pending := t.pending
    counters := { r.counters with interestTimeouts := t.timeouts } }

def updateTables (r : Relay σ κ) (change : Tables → Tables) : Relay σ κ :=
  r.withTables (change r.tables)

section

variable (r : Relay σ κ) (t : Tables)

lemma withTables_eq :
    r.withTables t = r.withRest { r.rest with
      store := t.store
      pending := t.pending
      intake := { r.rest.intake with interestTimeouts := t.timeouts } } :=
  rfl

variable [Scheduler σ]

lemma propagate_withTables (e : PendingInterest) :
    (r.withTables t).propagate e = (r.propagate e).withTables t := by
  rw [withTables_eq, propagate_withRest _ _ rfl, withTables_eq, rest_propagate]

omit t in
lemma tables_propagate (e : PendingInterest) : (r.propagate e).tables = r.tables := by
  have hsame : r.propagate e = (r.propagate e).withTables r.tables :=
    r.propagate_withTables r.tables e
  rw [hsame]
  rfl

omit t in
/-- The tables may be changed after an interest was sent as well as before. -/
lemma propagate_updateTables (change : Tables → Tables) (e : PendingInterest) :
    (r.updateTables change).propagate e = (r.propagate e).updateTables change := by
  unfold updateTables
  rw [propagate_withTables, tables_propagate]

omit t in
lemma propagateAll_updateTables (change : Tables → Tables) (entries : List PendingInterest) :
    entries.foldl propagate (r.updateTables change) =
      (entries.foldl propagate r).updateTables change := by
  induction entries generalizing r with
  | nil => rfl
  | cons e entries ih =>
    rw [List.foldl_cons, propagate_updateTables, ih, List.foldl_cons]

omit t in
lemma tables_propagateAll (entries : List PendingInterest) :
    (entries.foldl propagate r).tables = r.tables := by
  have hsame : entries.foldl propagate r =
      (entries.foldl propagate r).updateTables fun _ => r.tables :=
    r.propagateAll_updateTables (fun _ => r.tables) entries
  rw [hsame]
  rfl

end

/-! ## What a sweep sends -/

/-- What it puts on faces to send the interest of an entry: one packet for each of its routes, and
more only by a broadcast, where no route takes the interest. -/
def Spreads (r : Relay σ κ) (e : PendingInterest) (handed : List Handing) : Prop :=
  ∃ others, handed = r.copies e ++ others ∧
    (∀ h ∈ others, ∃ id, h = .face id .interest e.packet.wire) ∧
    (others ≠ [] → r.routesFor e = [] ∧ r.config.broadcastFallback = true)

/-- The interests that have not expired are sent again, one after the other. -/
def retransmitted [Scheduler σ] (r : Relay σ κ) : Relay σ κ :=
  r.resent.foldl propagate r

/-- Where the faces stay, an interest takes the same routes. -/
lemma KeepsFaces.routesFor {r m : Relay σ κ} (h : r.KeepsFaces m) {e : PendingInterest}
    (hlive : ∀ id, e.arrival = some id → r.isLive id = true) : m.routesFor e = r.routesFor e := by
  have hreflects : m.reflects e.arrival = r.reflects e.arrival := by
    cases harrival : e.arrival with
    | none => rfl
    | some id =>
      obtain ⟨f, hf⟩ := Option.isSome_iff_exists.mp (hlive id harrival)
      obtain ⟨f', hf', hkey⟩ := h.faces hf
      have hflags : f'.flags = f.flags := congrArg FaceKey.flags hkey
      rw [reflects_of_get? hf, reflects_of_get? hf', hflags]
  unfold Relay.routesFor
  rw [h.table, hreflects]

lemma KeepsFaces.spreads {r m : Relay σ κ} (h : r.KeepsFaces m) {e : PendingInterest}
    (hlive : ∀ id, e.arrival = some id → r.isLive id = true) {handed : List Handing}
    (hm : m.Spreads e handed) : r.Spreads e handed := by
  have hroutes := h.routesFor hlive
  have hcopies : m.copies e = r.copies e := by
    unfold copies targets
    rw [hroutes]
  unfold Spreads at hm
  rwa [hroutes, hcopies, h.config] at hm

variable [Scheduler σ]

/-- Each entry is sent once, in order, and along the routes it had to begin with. -/
lemma foldl_propagate_spreads {r m : Relay σ κ} (hl : m.Linked) (hk : r.KeepsFaces m)
    {entries : List PendingInterest}
    (hlive : ∀ e ∈ entries, ∀ id, e.arrival = some id → r.isLive id = true) :
    ∃ parts, m.Sends (entries.foldl propagate m) parts.flatten ∧
      List.Forall₂ r.Spreads entries parts := by
  induction entries generalizing m with
  | nil => exact ⟨[], Sends.refl m, .nil⟩
  | cons e entries ih =>
    obtain ⟨others, hsends, hothers, honly⟩ := m.propagate_sends e (hl.targets e)
    have hfirst : r.Spreads e (m.copies e ++ others) :=
      hk.spreads (hlive e List.mem_cons_self) ⟨others, rfl, hothers, honly⟩
    obtain ⟨parts, hrest, hspreads⟩ := ih (hl.of_keeps hsends.toKeepsFaces)
      (hk.trans hsends.toKeepsFaces) fun e' he' => hlive e' (List.mem_cons_of_mem e he')
    exact ⟨_ :: parts, hsends.trans hrest, .cons hfirst hspreads⟩

lemma retransmitted_spreads {r : Relay σ κ} (hl : r.Linked) :
    ∃ parts, r.Sends r.retransmitted parts.flatten ∧ List.Forall₂ r.Spreads r.resent parts := by
  refine foldl_propagate_spreads hl (KeepsFaces.refl r) ?_
  intro e he id harrival
  exact hl.arrivals e (List.mem_filter.mp he).1 id harrival

end NamedRelay.Relay
