import NamedRelay.Proofs.Steps

/-!
# No face is missing

In every state that operations lead to, and in those an operation passes through on its way, what
names a face names one that is there. So packets put on a face always find it, no waiter is skipped
when content is served, and a face that hands a packet down finds its interface.
-/

namespace NamedRelay.Relay

variable {σ κ : Type} [Scheduler σ]

/-- An interest offered to a face, as forwarding does. -/
def offerInterest (r : Relay σ κ) (wire : Bytes) (id : FaceId) : Except Error Bool × Relay σ κ :=
  (r.tally fun c => { c with interestsForwarded := c.interestsForwarded + 1 }).offer .interest
    id wire

/-- Content offered to a face, as serving does. -/
def offerContent (r : Relay σ κ) (wire : Bytes) (id : FaceId) : Except Error Bool × Relay σ κ :=
  (r.tally fun c => { c with contentsForwarded := c.contentsForwarded + 1 }).offer .reply id wire

/-- The offers that forwarding and serving make in a state, the waiters that serving looks up, and
the interfaces that faces hand packets down to, are all met. -/
structure NeverMisses (r : Relay σ κ) : Prop where
  /-- Along the routes of an interest, some of which it has taken. -/
  routed : ∀ e taken id rest, r.targets e = taken ++ id :: rest →
    ∃ added, ((taken.foldl (fun r id => r.forwardInterest e.packet.wire id)
      (r.emitAll (tapEvents e (r.routesFor e)))).offerInterest e.packet.wire id).1 = .ok added
  /-- On the face of a broadcast address. -/
  broadcast : ∀ wire interface peer id r', r.getFace interface peer = (.ok id, r') →
    ∃ added, (r'.offerInterest wire id).1 = .ok added
  /-- To the faces that get content, some of which have it. -/
  replied : ∀ content served id rest, (r.recipients content).network = served ++ id :: rest →
    ∃ added, ((served.foldl (fun r id => r.forwardContent content.wire id)
      (r.withoutSatisfied content)).offerContent content.wire id).1 = .ok added
  waiters : ∀ e ∈ r.pending.toList, ∀ w ∈ e.waiters, ∃ f, r.faces.get? w.face = some f
  interfaces : ∀ id f index, r.faces.get? id = some f → f.interface = some index →
    ∃ i, r.interfaces[index]? = some i

/-- An offer to a face that is there succeeds. -/
lemma exists_offer_eq_ok (r : Relay σ κ) (purpose : Purpose) {id : FaceId}
    (hlive : r.isLive id = true) (packet : Bytes) :
    ∃ added, (r.offer purpose id packet).1 = .ok added := by
  obtain ⟨f, hf⟩ := Option.isSome_iff_exists.mp hlive
  exact ⟨_, (r.offer_of_live purpose hf packet).1⟩

lemma forwardInterests_isLive (r : Relay σ κ) (wire : Bytes) (ids : List FaceId) {id : FaceId}
    (hlive : r.isLive id = true) :
    (ids.foldl (fun r id => r.forwardInterest wire id) r).isLive id = true := by
  induction ids generalizing r with
  | nil => exact hlive
  | cons first ids ih => exact ih _ ((r.forwardInterest_keeps wire first).isLive hlive)

lemma forwardContents_isLive (r : Relay σ κ) (wire : Bytes) (ids : List FaceId) {id : FaceId}
    (hlive : r.isLive id = true) :
    (ids.foldl (fun r id => r.forwardContent wire id) r).isLive id = true := by
  induction ids generalizing r with
  | nil => exact hlive
  | cons first ids ih =>
    apply ih
    have hcounted : (r.tally fun c =>
        { c with contentsForwarded := c.contentsForwarded + 1 }).isLive id = true := hlive
    exact (offer_keeps _ .reply first wire).isLive hcounted

lemma Linked.neverMisses {r : Relay σ κ} (hl : r.Linked) : r.NeverMisses where
  routed e taken id rest htargets := by
    have hlive : r.isLive id = true := hl.targets e id (by simp [htargets])
    apply exists_offer_eq_ok
    exact forwardInterests_isLive (r.emitAll (tapEvents e (r.routesFor e))) e.packet.wire taken hlive
  broadcast wire interface peer id r' hface := by
    have hlive : r'.isLive id = true := isLive_of_getFace hface
    apply exists_offer_eq_ok
    exact hlive
  replied content served id rest hserved := by
    have hmem : id ∈ (r.recipients content).network := by
      rw [hserved]
      simp
    have hlive : r.isLive id = true := isLive_of_mem_network hmem
    apply exists_offer_eq_ok
    exact forwardContents_isLive (r.withoutSatisfied content) content.wire served hlive
  waiters e he w hw := by
    have hlive := hl.waiting e he w.face (List.mem_map_of_mem hw)
    exact Option.isSome_iff_exists.mp hlive
  interfaces id f index hf hindex := by
    have hlt := hl.interfaces f (FaceRegistry.mem_of_get? hf) index hindex
    exact ⟨_, List.getElem?_eq_getElem hlt⟩

/-! ## In the middle of a sweep -/

/-- The cached content has aged and the expired interests are gone, and nothing is sent yet. -/
def swept (r : Relay σ κ) : Relay σ κ :=
  r.ageStore.aged.tally fun c => { c with
    interestTimeouts := c.interestTimeouts +
      UInt64.ofNat (r.pending.toList.filter r.isExpired).length }

/-- The interests that a sweep sends again. -/
def resent (r : Relay σ κ) : List PendingInterest :=
  r.pending.toList.filter fun e => !r.isExpired e

/-- The faces that a sweep removes. -/
def outdated (r : Relay σ κ) : List FaceId :=
  (r.faces.faces.filter fun f => f.isExpired r.config.faceTimeout r.clock).map Face.id

/-- The states an operation passes through: packets have moved or faces have come, an interest is
recorded, a sweep has sent some of the interests again, or it has removed some of the faces. -/
inductive Passes (r : Relay σ κ) : Relay σ κ → Prop where
  | start : r.Passes r
  | moved {m m' : Relay σ κ} : r.Passes m → m.KeepsFaces m' → r.Passes m'
  | recorded {m : Relay σ κ} {t : PendingTable} : r.Passes m → m.Grows t →
      r.Passes { m with pending := t }
  | satisfied {m : Relay σ κ} (content : Packet) : r.Passes m →
      r.Passes (m.withoutSatisfied content)
  | sweeping {sent rest : List PendingInterest} : r.resent = sent ++ rest →
      r.Passes (sent.foldl propagate r.swept)
  | clearing {gone rest : List FaceId} :
      (r.resent.foldl propagate r.swept).outdated = gone ++ rest →
      r.Passes ((r.resent.foldl propagate r.swept).removeFaces gone)

omit [Scheduler σ] in
lemma Linked.swept {r : Relay σ κ} (hl : r.Linked) : r.swept.Linked := by
  have hstore : r.ageStore.Linked := hl.of_keeps (Acts.of_store r _ r.strategy).toKeepsFaces
  exact hstore.aged.of_keeps { KeepsFaces.refl r.ageStore.aged with }

lemma Linked.propagateAll {r : Relay σ κ} (hl : r.Linked) (entries : List PendingInterest) :
    (entries.foldl propagate r).Linked := by
  obtain ⟨handed, hacts⟩ := propagateAll_acts hl entries
  exact hl.of_keeps hacts.toKeepsFaces

lemma Linked.passes {r m : Relay σ κ} (hl : r.Linked) (hp : r.Passes m) : m.Linked := by
  induction hp with
  | start => exact hl
  | moved _ hk ih => exact ih.of_keeps hk
  | recorded _ hg ih => exact ih.grows hg
  | satisfied content _ ih => exact ih.withoutSatisfied content
  | sweeping _ => exact hl.swept.propagateAll _
  | clearing _ => exact (hl.swept.propagateAll _).removeFaces _

end NamedRelay.Relay

namespace NamedRelay

/-- No dangling names: in every reachable relay the faces that routes and pending interests name
are there, and faces are on interfaces that are there. So it is in the states that an operation
passes through, in which therefore no offer fails, no waiter is skipped and no interface is missing;
and what an operation counts as forwarded is what it has put on faces. -/
theorem named_faces_are_live {σ κ : Type} [Scheduler σ] [CacheStrategy κ] {r : Relay σ κ}
    (h : Reachable r) :
    r.Linked ∧ (∀ m, r.Passes m → m.Linked ∧ m.NeverMisses) ∧
      ∀ op : Operation σ κ, r.Hands (op.run r) (op.handings r) := by
  have hl := h.linked
  refine ⟨hl, ?_, ?_⟩
  · intro m hp
    have hm := hl.passes hp
    exact ⟨hm, hm.neverMisses⟩
  · intro op
    obtain ⟨handed, hh⟩ := (Relay.effect_run hl op).hands
    have heq : op.handings r = handed := hh.handings_eq
    rw [heq]
    exact hh

/-- Two peers wait, and nothing is missing once a sweep has sent their interest again. -/
theorem waiting_peers_are_linked :
    Sample.asked.Linked ∧
      (Sample.asked.resent.foldl Relay.propagate Sample.asked.swept).NeverMisses ∧
      Sample.asked.Hands Sample.asked.doAgeing
        (Operation.doAgeing.handings Sample.asked) := by
  obtain ⟨hlinked, hpasses, hhands⟩ := named_faces_are_live Sample.reachable_asked
  have hmid : Sample.asked.Passes
      (Sample.asked.resent.foldl Relay.propagate Sample.asked.swept) :=
    .sweeping (List.append_nil _).symm
  exact ⟨hlinked, (hpasses _ hmid).2, hhands .doAgeing⟩

end NamedRelay
