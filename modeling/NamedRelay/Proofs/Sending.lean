import NamedRelay.Proofs.Operation

/-!
# What sending leaves as it is

Moving packets, asking schedulers and meeting peers touch queues, schedulers, counters and the log.
`KeepsFaces` says that no face goes, that faces which come are on an interface that is there, and
that the tables which name faces stay; `Keeps` that the other tables stay as well. `Hands` says what
was handed out, and that the two counters of forwarded packets went up by the packets put on faces.
-/

namespace NamedRelay

/-- What of a face stays as it is while packets move. -/
structure FaceKey where
  id : FaceId
  interface : Option Nat
  peer : Option Address
  flags : FaceFlags
deriving DecidableEq

def Face.key {σ : Type} (f : Face σ) : FaceKey :=
  ⟨f.id, f.interface, f.peer, f.flags⟩

/-- What of an interface stays as it is while packets move. -/
def Interface.settings {σ : Type} (i : Interface σ) : Address × Bool × Bool :=
  (i.address, i.reflect, i.forwardAll)

namespace Face

variable {σ : Type}

@[simp] lemma key_touch (f : Face σ) (now : Timestamp) : (f.touch now).key = f.key := rfl

@[simp] lemma key_enqueue (f : Face σ) (packet : Bytes) : (f.enqueue packet).2.key = f.key := by
  unfold enqueue
  split <;> rfl

@[simp] lemma key_dequeue (f : Face σ) : f.dequeue.2.key = f.key := by
  unfold dequeue
  split <;> rfl

lemma id_eq_of_key_eq {f g : Face σ} (h : f.key = g.key) : f.id = g.id :=
  congrArg FaceKey.id h

lemma interface_eq_of_key_eq {f g : Face σ} (h : f.key = g.key) : f.interface = g.interface :=
  congrArg FaceKey.interface h

end Face

namespace FaceRegistry

variable {σ : Type}

lemma id_of_get? {g : FaceRegistry σ} {id : FaceId} {f : Face σ} (h : g.get? id = some f) :
    f.id = id := by
  simpa using List.find?_some h

lemma mem_of_get? {g : FaceRegistry σ} {id : FaceId} {f : Face σ} (h : g.get? id = some f) :
    f ∈ g.faces :=
  List.mem_of_find?_eq_some h

lemma isSome_get?_iff (g : FaceRegistry σ) (id : FaceId) :
    (g.get? id).isSome ↔ ∃ f ∈ g.faces, f.id = id := by
  simp [get?]

lemma get?_modify (g : FaceRegistry σ) {id : FaceId} {change : Face σ → Face σ}
    (hid : ∀ f, f.id = id → (change f).id = id) (j : FaceId) :
    (g.modify id change).get? j =
      (g.get? j).map fun f => if f.id = id then change f else f := by
  unfold modify get?
  rw [List.find?_map]
  congr 2
  funext f
  by_cases hf : f.id = id
  · simp [hf, hid f hf]
  · simp [hf]

lemma get?_modify_self {g : FaceRegistry σ} {f : Face σ} {change : Face σ → Face σ}
    (hf : g.get? f.id = some f) (hid : ∀ e, e.id = f.id → (change e).id = f.id) :
    (g.modify f.id change).get? f.id = some (change f) := by
  rw [get?_modify g hid, hf]
  simp

lemma get?_insert_of_some {g : FaceRegistry σ} {id : FaceId} {f : Face σ}
    (h : g.get? id = some f) (face : Face σ) : (g.insert face).get? id = some f := by
  unfold get? at h
  simp [insert, get?, List.find?_append, h]

end FaceRegistry

namespace Relay

variable {σ κ : Type}

/-- No face goes, new faces are on interfaces that are there, and the tables that name faces stay. -/
structure KeepsFaces (r r' : Relay σ κ) : Prop where
  config : r'.config = r.config
  clock : r'.clock = r.clock
  digest : r'.digest = r.digest
  delivers : r'.delivers = r.delivers
  table : r'.table = r.table
  pending : r'.pending = r.pending
  interfaces : r'.interfaces.map Interface.settings = r.interfaces.map Interface.settings
  faces : ∀ {id f}, r.faces.get? id = some f → ∃ f', r'.faces.get? id = some f' ∧ f'.key = f.key
  reached : ∀ f' ∈ r'.faces.faces, ∀ index, f'.interface = some index →
    index < r.interfaces.length ∨ ∃ f ∈ r.faces.faces, f.interface = some index

/-- `KeepsFaces`, and the other tables stay too. -/
structure Keeps (r r' : Relay σ κ) : Prop extends r.KeepsFaces r' where
  store : r'.store = r.store
  nonces : r'.nonces = r.nonces
  strategy : r'.strategy = r.strategy

namespace KeepsFaces

lemma refl (r : Relay σ κ) : r.KeepsFaces r where
  config := rfl
  clock := rfl
  digest := rfl
  delivers := rfl
  table := rfl
  pending := rfl
  interfaces := rfl
  faces h := ⟨_, h, rfl⟩
  reached f hf _ hi := .inr ⟨f, hf, hi⟩

lemma length_interfaces {r r' : Relay σ κ} (h : r.KeepsFaces r') :
    r'.interfaces.length = r.interfaces.length := by
  simpa using congrArg List.length h.interfaces

lemma trans {r r' r'' : Relay σ κ} (h : r.KeepsFaces r') (h' : r'.KeepsFaces r'') :
    r.KeepsFaces r'' where
  config := h'.config.trans h.config
  clock := h'.clock.trans h.clock
  digest := h'.digest.trans h.digest
  delivers := h'.delivers.trans h.delivers
  table := h'.table.trans h.table
  pending := h'.pending.trans h.pending
  interfaces := h'.interfaces.trans h.interfaces
  faces hf := by
    obtain ⟨f', hf', hk⟩ := h.faces hf
    obtain ⟨f'', hf'', hk'⟩ := h'.faces hf'
    exact ⟨f'', hf'', hk'.trans hk⟩
  reached f'' hf'' index hi := by
    rcases h'.reached f'' hf'' index hi with hlt | ⟨f', hf', hi'⟩
    · exact .inl (h.length_interfaces ▸ hlt)
    · exact h.reached f' hf' index hi'

lemma isLive {r r' : Relay σ κ} (h : r.KeepsFaces r') {id : FaceId} (hl : r.isLive id = true) :
    r'.isLive id = true := by
  obtain ⟨f, hf⟩ := Option.isSome_iff_exists.mp hl
  obtain ⟨f', hf', -⟩ := h.faces hf
  simp [Relay.isLive, hf']

end KeepsFaces

namespace Keeps

lemma refl (r : Relay σ κ) : r.Keeps r where
  toKeepsFaces := KeepsFaces.refl r
  store := rfl
  nonces := rfl
  strategy := rfl

lemma trans {r r' r'' : Relay σ κ} (h : r.Keeps r') (h' : r'.Keeps r'') : r.Keeps r'' where
  toKeepsFaces := h.toKeepsFaces.trans h'.toKeepsFaces
  store := h'.store.trans h.store
  nonces := h'.nonces.trans h.nonces
  strategy := h'.strategy.trans h.strategy

/-- A change of faces that keeps what is known of them. -/
lemma of_modify (r : Relay σ κ) (id : FaceId) (change : Face σ → Face σ)
    (hk : ∀ f, r.faces.get? id = some f → (change f).key = f.key)
    (hid : ∀ f, f.id = id → (change f).id = id)
    (hi : ∀ f ∈ r.faces.faces, f.id = id → ∀ index, (change f).interface = some index →
      ∃ g ∈ r.faces.faces, g.interface = some index) :
    r.Keeps { r with faces := r.faces.modify id change } where
  toKeepsFaces := { KeepsFaces.refl r with
    faces := fun {j f} hf => by
      have hget := r.faces.get?_modify hid j
      rw [hf, Option.map_some] at hget
      refine ⟨_, hget, ?_⟩
      by_cases hj : f.id = id
      · rw [if_pos hj]
        apply hk
        rw [← hj, FaceRegistry.id_of_get? hf]
        exact hf
      · rw [if_neg hj]
    reached := fun f' hf' index hindex => by
      obtain ⟨f, hf, rfl⟩ := List.mem_map.mp hf'
      by_cases hj : f.id = id
      · rw [if_pos hj] at hindex
        exact .inr (hi f hf hj index hindex)
      · rw [if_neg hj] at hindex
        exact .inr ⟨f, hf, hindex⟩ }
  store := rfl
  nonces := rfl
  strategy := rfl

end Keeps

/-- What was handed out, as the log has it. Interests and answers put on faces are counted. -/
structure Hands (r r' : Relay σ κ) (handed : List Handing) : Prop where
  log : ∃ events, r'.log = r.log ++ events ∧ events.filterMap Event.handing? = handed
  interests : r'.counters.interestsForwarded =
    r.counters.interestsForwarded + UInt64.ofNat (handed.countP Handing.isInterest)
  contents : r'.counters.contentsForwarded =
    r.counters.contentsForwarded + UInt64.ofNat (handed.countP Handing.isReply)

namespace Hands

/-- Events that hand nothing out may come between. -/
lemma of_log {r r' : Relay σ κ} {events : List Event} (hlog : r'.log = r.log ++ events)
    (he : events.filterMap Event.handing? = [])
    (hi : r'.counters.interestsForwarded = r.counters.interestsForwarded)
    (hc : r'.counters.contentsForwarded = r.counters.contentsForwarded) : r.Hands r' [] where
  log := ⟨events, hlog, he⟩
  interests := by simp [hi]
  contents := by simp [hc]

lemma refl (r : Relay σ κ) : r.Hands r [] :=
  of_log (List.append_nil r.log).symm rfl rfl rfl

lemma trans {r r' r'' : Relay σ κ} {handed handed' : List Handing} (h : r.Hands r' handed)
    (h' : r'.Hands r'' handed') : r.Hands r'' (handed ++ handed') where
  log := by
    obtain ⟨events, hl, hh⟩ := h.log
    obtain ⟨events', hl', hh'⟩ := h'.log
    exact ⟨events ++ events', by rw [hl', hl, List.append_assoc],
      by rw [List.filterMap_append, hh, hh']⟩
  interests := by
    rw [h'.interests, h.interests, List.countP_append, UInt64.ofNat_add, UInt64.add_assoc]
  contents := by
    rw [h'.contents, h.contents, List.countP_append, UInt64.ofNat_add, UInt64.add_assoc]

/-- A change of the pending table hands nothing out. -/
lemma of_withPending {r r' : Relay σ κ} {t : PendingTable} {handed : List Handing}
    (h : ({ r with pending := t } : Relay σ κ).Hands r' handed) : r.Hands r' handed where
  log := h.log
  interests := h.interests
  contents := h.contents

/-- What is handed out is what the log has gained. -/
lemma handings_eq {r r' : Relay σ κ} {handed : List Handing} (h : r.Hands r' handed) :
    (r'.log.drop r.log.length).filterMap Event.handing? = handed := by
  obtain ⟨events, hl, hh⟩ := h.log
  rw [hl, List.drop_left, hh]

end Hands

/-- What an operation hands out while it keeps the faces. -/
structure Acts (r r' : Relay σ κ) (handed : List Handing) : Prop
    extends r.KeepsFaces r', r.Hands r' handed

namespace Acts

lemma refl (r : Relay σ κ) : r.Acts r [] :=
  { KeepsFaces.refl r, Hands.refl r with }

lemma trans {r r' r'' : Relay σ κ} {handed handed' : List Handing} (h : r.Acts r' handed)
    (h' : r'.Acts r'' handed') : r.Acts r'' (handed ++ handed') where
  toKeepsFaces := h.toKeepsFaces.trans h'.toKeepsFaces
  toHands := h.toHands.trans h'.toHands

end Acts

/-- Sending keeps the other tables as well. -/
structure Sends (r r' : Relay σ κ) (handed : List Handing) : Prop
    extends r.Keeps r', r.Hands r' handed

namespace Sends

lemma of_keeps {r r' : Relay σ κ} (h : r.Keeps r') (hh : r.Hands r' []) : r.Sends r' [] :=
  { h, hh with }

lemma refl (r : Relay σ κ) : r.Sends r [] :=
  of_keeps (Keeps.refl r) (Hands.refl r)

lemma trans {r r' r'' : Relay σ κ} {handed handed' : List Handing} (h : r.Sends r' handed)
    (h' : r'.Sends r'' handed') : r.Sends r'' (handed ++ handed') where
  toKeeps := h.toKeeps.trans h'.toKeeps
  toHands := h.toHands.trans h'.toHands

lemma acts {r r' : Relay σ κ} {handed : List Handing} (h : r.Sends r' handed) :
    r.Acts r' handed :=
  { h.toKeepsFaces, h.toHands with }

lemma emitAll (r : Relay σ κ) (events : List Event)
    (h : events.filterMap Event.handing? = []) : r.Sends (r.emitAll events) [] :=
  of_keeps { Keeps.refl r with } (Hands.of_log rfl h rfl rfl)

end Sends

end Relay

end NamedRelay
