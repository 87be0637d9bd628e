import NamedRelay.Proofs.Lifetime
import NamedRelay.Proofs.SendingFrame

/-!
# Deadlines

A timeout has passed once the clock shows the time it began at and the timeout added up. Additions
stop at the last representable time, and until the clock shows that, this makes no difference: what
lies beyond it does not time out, and nothing times out early.
-/

namespace NamedRelay

namespace Timestamp

/-- The timeout has passed since then, however large it is. -/
def Passed (t : Timestamp) (ms : UInt64) (now : Timestamp) : Prop :=
  t.ms.toNat + ms.toNat ≤ now.ms.toNat

instance (t : Timestamp) (ms : UInt64) (now : Timestamp) : Decidable (t.Passed ms now) :=
  inferInstanceAs (Decidable (_ ≤ _))

/-- A later time can be represented. -/
def BeforeLast (now : Timestamp) : Prop :=
  now.ms.toNat < UInt64.size - 1

instance (now : Timestamp) : Decidable now.BeforeLast :=
  inferInstanceAs (Decidable (_ < _))

variable {t now : Timestamp} {ms : UInt64}

lemma hasElapsed_iff (hnow : now.BeforeLast) : t.hasElapsed ms now = true ↔ t.Passed ms now := by
  unfold BeforeLast at hnow
  unfold hasElapsed adding Passed
  rw [decide_eq_true_eq, UInt64.le_iff_toNat_le, toNat_addSaturating]
  omega

/-- What lies beyond the last time never passes. -/
lemma not_passed_of_size_le (h : UInt64.size ≤ t.ms.toNat + ms.toNat) : ¬t.Passed ms now := by
  have hlast := now.ms.toNat_lt
  unfold Passed
  rw [UInt64.size] at h
  omega

lemma Passed.of_le {t' : Timestamp} (h : t'.Passed ms now) (hle : t.ms ≤ t'.ms) :
    t.Passed ms now :=
  Nat.le_trans (Nat.add_le_add_right (UInt64.le_iff_toNat_le.mp hle) _) h

lemma le_latest (t other : Timestamp) : t.ms ≤ (t.latest other).ms := by
  unfold latest
  split
  · exact UInt64.le_refl _
  · rename_i h
    exact UInt64.le_of_lt (UInt64.not_le.mp h)

end Timestamp

namespace Relay

variable {σ κ : Type}

/-! ## Faces while interests are sent -/

/-- No face goes, and none was last used earlier than before. -/
def UsesOn (r r' : Relay σ κ) : Prop :=
  ∀ ⦃id f⦄, r.faces.get? id = some f →
    ∃ f', r'.faces.get? id = some f' ∧ f.lastUsed.ms ≤ f'.lastUsed.ms

namespace UsesOn

lemma of_faces {r r' : Relay σ κ} (h : r'.faces = r.faces) : r.UsesOn r' :=
  fun _ f hf => ⟨f, h ▸ hf, UInt64.le_refl _⟩

lemma refl (r : Relay σ κ) : r.UsesOn r :=
  of_faces rfl

lemma trans {r m r' : Relay σ κ} (h : r.UsesOn m) (h' : m.UsesOn r') : r.UsesOn r' := by
  intro id f hf
  obtain ⟨f', hf', hle⟩ := h hf
  obtain ⟨f'', hf'', hle'⟩ := h' hf'
  exact ⟨f'', hf'', UInt64.le_trans hle hle'⟩

lemma of_change {r r' : Relay σ κ} {id : FaceId} {change : Face σ → Face σ}
    (hfaces : r'.faces = r.faces.modify id change)
    (hid : ∀ f, f.id = id → (change f).id = id)
    (huse : ∀ f, r.faces.get? id = some f → f.lastUsed.ms ≤ (change f).lastUsed.ms) :
    r.UsesOn r' := by
  intro j f hf
  have hget := r.faces.get?_modify hid j
  rw [hf, Option.map_some, ← hfaces] at hget
  refine ⟨_, hget, ?_⟩
  split
  · rename_i hj
    apply huse
    rw [← hj, FaceRegistry.id_of_get? hf]
    exact hf
  · exact UInt64.le_refl _

lemma foldl {α : Type} {f : Relay σ κ → α → Relay σ κ}
    (hf : ∀ (r : Relay σ κ) (a : α), r.UsesOn (f r a))
    (items : List α) (r : Relay σ κ) : r.UsesOn (items.foldl f r) := by
  induction items generalizing r with
  | nil => exact refl r
  | cons a items ih => exact (hf r a).trans (ih (f r a))

end UsesOn

lemma createFace_usesOn (r : Relay σ κ) (interface : Option Nat) (peer : Option Address) :
    r.UsesOn (r.createFace interface peer).2 := by
  rcases r.createFace_cases interface peer with hnone | ⟨id, sought, -, -, hcreated⟩
  · rw [hnone]
    exact .refl r
  · rw [hcreated]
    exact fun j f hf => ⟨f, FaceRegistry.get?_insert_of_some hf _, UInt64.le_refl _⟩

lemma getFace_usesOn (r : Relay σ κ) (interface : Option Nat) (peer : Option Address) :
    r.UsesOn (r.getFace interface peer).2 := by
  unfold getFace
  split
  · exact .refl r
  · split
    · exact .of_change rfl (fun _ hf => hf) fun f _ => f.lastUsed.le_latest r.clock
    · exact r.createFace_usesOn _ _

lemma faceClearToSend_usesOn (r : Relay σ κ) (id : FaceId) :
    r.UsesOn (r.faceClearToSend id).2 := by
  rcases r.faceClearToSend_cases id with hsame |
    ⟨f, index, destination, packet, rest, hf, -, -, -, htaken⟩
  · rw [hsame]
    exact .refl r
  · obtain rfl := FaceRegistry.id_of_get? hf
    obtain ⟨hfaces, -⟩ := interfaceEnqueue_faces
      { r with faces := r.faces.modify f.id fun _ => { f with queue := rest } } index
      (some f.id) packet destination
    rw [htaken]
    refine .of_change hfaces (fun _ _ => rfl) ?_
    intro f' hf'
    rw [hf] at hf'
    obtain rfl := Option.some.inj hf'
    exact UInt64.le_refl _

variable [Scheduler σ]

lemma askFace_usesOn (r : Relay σ κ) (f : Face σ) (length : Nat) :
    r.UsesOn (r.askFace f length).2 := by
  unfold askFace
  split
  · exact .refl r
  · exact .of_change rfl (fun _ hf => hf) fun _ _ => UInt64.le_refl _

omit [Scheduler σ] in
lemma queue_usesOn (r : Relay σ κ) (purpose : Purpose) {f : Face σ}
    (hf : r.faces.get? f.id = some f) (packet : Bytes) : r.UsesOn (r.queue purpose f packet) := by
  refine .of_change rfl (fun _ _ => Face.id_eq_of_key_eq (f.key_enqueue packet)) ?_
  intro f' hf'
  rw [hf] at hf'
  obtain rfl := Option.some.inj hf'
  unfold Face.enqueue
  split
  · exact UInt64.le_refl _
  · exact UInt64.le_refl _

lemma offer_usesOn (r : Relay σ κ) (purpose : Purpose) (id : FaceId) (packet : Bytes) :
    r.UsesOn (r.offer purpose id packet).2 := by
  cases hf : r.faces.get? id with
  | none =>
    rw [offer_of_not_live r purpose hf]
    exact .refl r
  | some f =>
    obtain rfl := FaceRegistry.id_of_get? hf
    have hqueued := r.queue_usesOn purpose hf packet
    rw [r.offer_eq purpose hf]
    split
    · have hasked := hqueued.trans (askFace_usesOn _ (f.enqueue packet).2 packet.length)
      dsimp only
      split
      · exact hasked.trans (faceClearToSend_usesOn _ f.id)
      · exact hasked
    · exact hqueued

lemma forwardInterest_usesOn (r : Relay σ κ) (wire : Bytes) (id : FaceId) :
    r.UsesOn (r.forwardInterest wire id) :=
  UsesOn.trans (.of_faces rfl) (offer_usesOn
    (r.tally fun c => { c with interestsForwarded := c.interestsForwarded + 1 }) .interest id wire)

lemma broadcastOn_usesOn (r : Relay σ κ) (wire : Bytes) (suite : Suite) (index : Nat) :
    r.UsesOn (r.broadcastOn wire suite index) := by
  unfold broadcastOn
  split
  · exact .refl r
  · rename_i i _
    have hface := r.getFace_usesOn (some index) (some (i.address.broadcast suite))
    rcases hm : r.getFace (some index) (some (i.address.broadcast suite)) with ⟨e | id, m⟩
    · rw [hm] at hface
      exact hface
    · rw [hm] at hface
      exact hface.trans (m.forwardInterest_usesOn wire id)

lemma propagate_usesOn (r : Relay σ κ) (e : PendingInterest) : r.UsesOn (r.propagate e) := by
  have htaps : r.UsesOn (r.emitAll (tapEvents e (r.routesFor e))) := .of_faces rfl
  have hforwarded := htaps.trans (UsesOn.foldl
    (f := fun m id => m.forwardInterest e.packet.wire id)
    (fun m id => m.forwardInterest_usesOn e.packet.wire id)
    ((r.routesFor e).filterMap Route.face) _)
  unfold propagate
  dsimp only
  split
  · exact hforwarded.trans (UsesOn.foldl
      (f := fun m index => m.broadcastOn e.packet.wire e.packet.suite index)
      (fun m index => m.broadcastOn_usesOn e.packet.wire e.packet.suite index) _ _)
  · exact hforwarded

lemma retransmitted_usesOn (r : Relay σ κ) : r.UsesOn r.retransmitted :=
  UsesOn.foldl propagate_usesOn r.resent r

end Relay

/-! ## What times out -/

def CachedContent.TimesOut (c : CachedContent) (timeout : UInt64) (now : Timestamp) : Prop :=
  c.flags.isStatic = false ∧ c.lastUsed.Passed timeout now

instance (c : CachedContent) (timeout : UInt64) (now : Timestamp) :
    Decidable (c.TimesOut timeout now) :=
  inferInstanceAs (Decidable (_ ∧ _))

def CachedContent.GoesStale (c : CachedContent) (now : Timestamp) : Prop :=
  c.flags.isStatic = false ∧ ∃ freshness ∈ c.packet.freshness, c.lastUsed.Passed freshness now

instance (c : CachedContent) (now : Timestamp) : Decidable (c.GoesStale now) :=
  inferInstanceAs (Decidable (_ ∧ _))

def Face.TimesOut {σ : Type} (f : Face σ) (timeout : UInt64) (now : Timestamp) : Prop :=
  f.flags.isStatic = false ∧ f.lastUsed.Passed timeout now

instance {σ : Type} (f : Face σ) (timeout : UInt64) (now : Timestamp) :
    Decidable (f.TimesOut timeout now) :=
  inferInstanceAs (Decidable (_ ∧ _))

namespace Relay

variable {σ κ : Type} {r : Relay σ κ}

lemma staysCached_iff (hnow : r.clock.BeforeLast) (c : CachedContent) :
    r.staysCached c = true ↔ ¬c.TimesOut r.config.contentTimeout r.clock := by
  unfold staysCached CachedContent.TimesOut
  rw [← Timestamp.hasElapsed_iff hnow]
  simp [or_iff_not_imp_left]

lemma withAge_eq (hnow : r.clock.BeforeLast) (c : CachedContent) :
    r.withAge c = if c.GoesStale r.clock then c.markStale else c := by
  have hiff : (!c.flags.isStatic && c.packet.freshness.any fun freshness =>
      c.lastUsed.hasElapsed freshness r.clock) = true ↔ c.GoesStale r.clock := by
    unfold CachedContent.GoesStale
    rw [Bool.and_eq_true, Bool.not_eq_true', Option.any_eq_true]
    simp only [Timestamp.hasElapsed_iff hnow, Option.mem_def]
  exact if_congr hiff rfl rfl

lemma isExpired_iff (hnow : r.clock.BeforeLast) (f : Face σ) :
    f.isExpired r.config.faceTimeout r.clock = true ↔ f.TimesOut r.config.faceTimeout r.clock := by
  unfold Face.isExpired Face.TimesOut
  rw [← Timestamp.hasElapsed_iff hnow]
  simp

lemma mem_resent_iff (hnow : r.clock.BeforeLast) {e : PendingInterest} (he : e ∈ r.pending.toList)
    (hretries : e.retries < r.config.maxRetransmits) :
    e ∈ r.resent ↔ ¬e.lastUsed.Passed e.lifetime r.clock := by
  rw [mem_resent, ← Timestamp.hasElapsed_iff hnow]
  unfold Timestamp.hasElapsed
  simp [he, hretries]

variable [Scheduler σ]

/-- What a sweep removes, with times and timeouts as natural numbers. An interest with retries left
goes at the end of its lifetime, or because no face is left that waits on it and the application did
not ask. -/
structure SweepsOnTime (r s : Relay σ κ) : Prop where
  cached : s.store.entries.toList =
    (r.store.entries.toList.filter fun c => ¬c.TimesOut r.config.contentTimeout r.clock).map
      fun c => if c.GoesStale r.clock then c.markStale else c
  pending : ∀ e ∈ r.pending.toList, e.retries < r.config.maxRetransmits →
    ((∀ e' ∈ s.pending.toList, e'.packet.request ≠ e.packet.request) ↔
      e.lastUsed.Passed e.lifetime r.clock ∨
        e.isLocal = false ∧ ∀ id ∈ e.waiting, s.isLive id = false)
  /-- Sending the interests again may have brought faces and have put others to use. -/
  faces : s.faces.faces = r.retransmitted.faces.faces.filter fun f =>
    ¬f.TimesOut r.config.faceTimeout r.clock
  faces_gone : ∀ id f, r.faces.get? id = some f → s.isLive id = false →
    f.TimesOut r.config.faceTimeout r.clock

lemma isLive_doAgeing (r : Relay σ κ) (id : FaceId) :
    r.doAgeing.isLive id =
      (r.retransmitted.isLive id && !r.retransmitted.outdated.contains id) := by
  rw [Bool.eq_iff_iff, Bool.and_eq_true, isLive_iff, isLive_iff, doAgeing_eq, faces_removeFaces,
    faces_agePending]
  constructor
  · rintro ⟨f, hf, rfl⟩
    obtain ⟨hmem, hkept⟩ := List.mem_filter.mp hf
    exact ⟨⟨f, hmem, rfl⟩, hkept⟩
  · rintro ⟨⟨f, hmem, rfl⟩, hkept⟩
    exact ⟨f, List.mem_filter.mpr ⟨hmem, hkept⟩, rfl⟩

/-- A face that was there before a sweep is outdated if it is gone afterwards. -/
lemma contains_outdated_iff {id : FaceId} (hlive : r.isLive id = true) :
    r.retransmitted.outdated.contains id = true ↔ r.doAgeing.isLive id = false := by
  obtain ⟨f, hf⟩ := Option.isSome_iff_exists.mp hlive
  obtain ⟨f', hf', -⟩ := r.retransmitted_usesOn hf
  rw [isLive_doAgeing, isLive_of_get? hf']
  simp

/-- An interest that is sent again goes if nobody is left who wants it. -/
lemma gone_iff_of_resent (hl : r.Linked) (hs : r.PendingSound) (hsweeps : r.Sweeps r.doAgeing)
    {e : PendingInterest} (he : e ∈ r.resent) :
    (∀ e' ∈ r.doAgeing.pending.toList, e'.packet.request ≠ e.packet.request) ↔
      e.isLocal = false ∧ ∀ id ∈ e.waiting, r.doAgeing.isLive id = false := by
  have hmem := (mem_resent.mp he).1
  have habandoned := e.retried.isAbandoned_withoutFaces_iff r.retransmitted.outdated
  have hgone : (∀ id ∈ e.waiting, r.retransmitted.outdated.contains id = true) ↔
      ∀ id ∈ e.waiting, r.doAgeing.isLive id = false :=
    forall₂_congr fun id hid => contains_outdated_iff (hl.waiting e hmem id hid)
  rw [← hgone]
  refine Iff.trans ?_ habandoned
  rw [hsweeps.pending]
  constructor
  · intro hnone
    by_contra hwanted
    refine hnone (e.retried.withoutFaces r.retransmitted.outdated) ?_ rfl
    exact List.mem_filter.mpr
      ⟨List.mem_map_of_mem (List.mem_map_of_mem he), by simpa using hwanted⟩
  · intro hnobody e' he' hrequest
    obtain ⟨hmem', hwanted⟩ := List.mem_filter.mp he'
    obtain ⟨_, hretried, rfl⟩ := List.mem_map.mp hmem'
    obtain ⟨e₀, he₀, rfl⟩ := List.mem_map.mp hretried
    -- No two entries are for one request, so it is the entry itself that is left.
    obtain rfl := hs.eq_of_request (mem_resent.mp he₀).1 hmem hrequest
    rw [hnobody] at hwanted
    cases hwanted

/-- A face that goes was not used again before it did. -/
lemma timesOut_of_gone (hl : r.Linked) (hnumbered : r.faces.Numbered) (hnow : r.clock.BeforeLast)
    {id : FaceId} {f : Face σ} (hf : r.faces.get? id = some f)
    (hgone : r.doAgeing.isLive id = false) : f.TimesOut r.config.faceTimeout r.clock := by
  obtain ⟨parts, hsends, -⟩ := retransmitted_spreads hl
  have hkeeps := hsends.toKeepsFaces
  -- The sending may have touched the face; it goes by the later time, and so by the earlier one.
  obtain ⟨f', hf', hkey⟩ := hkeeps.faces hf
  obtain ⟨f'', hf'', hle⟩ := r.retransmitted_usesOn hf
  obtain rfl : f' = f'' := Option.some.inj (hf'.symm.trans hf'')
  have hexpired := (contains_outdated_iff (isLive_of_get? hf)).mpr hgone
  rw [← FaceRegistry.id_of_get? hf', contains_outdated (numbered_retransmitted hnumbered)
    (FaceRegistry.mem_of_get? hf'), hkeeps.config, hkeeps.clock, isExpired_iff hnow] at hexpired
  obtain ⟨hdynamic, hpassed⟩ := hexpired
  have hflags : f'.flags = f.flags := congrArg FaceKey.flags hkey
  exact ⟨hflags ▸ hdynamic, hpassed.of_le hle⟩

lemma doAgeing_sweepsOnTime (hl : r.Linked) (hs : r.PendingSound) (hnumbered : r.faces.Numbered)
    (hnow : r.clock.BeforeLast) : r.SweepsOnTime r.doAgeing := by
  have hsweeps := doAgeing_sweeps hl hs hnumbered
  refine ⟨?_, ?_, ?_, ?_⟩
  · rw [hsweeps.cached]
    congr 1
    · exact funext (withAge_eq hnow)
    · apply List.filter_congr
      intro c _
      rw [Bool.eq_iff_iff, staysCached_iff hnow, decide_eq_true_eq]
  · intro e he hretries
    by_cases hpassed : e.lastUsed.Passed e.lifetime r.clock
    · have hdue : e ∉ r.resent := by
        rw [mem_resent_iff hnow he hretries]
        exact not_not.mpr hpassed
      refine iff_of_true ?_ (.inl hpassed)
      intro e' he' hrequest
      have hother := hsweeps.gone hs he hdue he'
      rw [(Packet.isSameInterest_iff _ _).mpr hrequest] at hother
      cases hother
    · have hresent := (mem_resent_iff hnow he hretries).mpr hpassed
      rw [gone_iff_of_resent hl hs hsweeps hresent, or_iff_right hpassed]
  · rw [hsweeps.faces]
    apply List.filter_congr
    intro f _
    rw [Bool.eq_iff_iff, decide_eq_true_eq, ← isExpired_iff hnow]
    unfold Face.isExpired
    simp [or_iff_not_imp_left]
  · exact fun id f hf hgone => timesOut_of_gone hl hnumbered hnow hf hgone

end Relay

/-- Nothing times out early, as long as the clock of the relay does not show the last time there is.
In natural numbers, a sweep drops exactly the cached content that is not pinned and whose timeout
has passed since it was last used, and flags content as stale whose freshness has. An interest with
retries left goes exactly if its lifetime has passed, or if no face that waits on it is left and the
application did not ask; and a face goes only if it is not static and its timeout has passed. So
what would be due after the last time never is. -/
theorem nothing_times_out_early {σ κ : Type} [Scheduler σ] [CacheStrategy κ] {r : Relay σ κ}
    (h : Reachable r) (hnow : r.clock.BeforeLast) :
    r.SweepsOnTime r.doAgeing ∧
      ∀ (t : Timestamp) (ms : UInt64), UInt64.size ≤ t.ms.toNat + ms.toNat →
        t.hasElapsed ms r.clock = false := by
  refine ⟨Relay.doAgeing_sweepsOnTime h.linked h.pendingSound h.numbered hnow, ?_⟩
  intro t ms hbeyond
  rw [← Bool.not_eq_true, Timestamp.hasElapsed_iff hnow]
  exact Timestamp.not_passed_of_size_le hbeyond

namespace Sample

/-- An interest that lives as long as can be. -/
def patientInterest : Packet :=
  { freshInterest with fields := .ndntlv 0 1 none false (some 18446744073709551615) 0 }

def patient : PendingInterest :=
  .fromFace patientInterest ⟨1⟩ 18446744073709551615 ⟨0⟩

/-- A peer has asked for content for all time, and then was silent for as long as a face is kept. -/
def deserted : Relay Allowance CachePolicy :=
  Operation.runAll [.handleInterest ⟨1⟩ patientInterest, .advance config.faceTimeout] peered

lemma reachable_deserted : Reachable deserted :=
  reachable_peered.runAll _

/-- Content was cached a moment before the last time there is. -/
def lastMoment : Relay Allowance CachePolicy :=
  Operation.runAll [.setClock 18446744073709551614, .addToCache (content 5), .advance 1] created

lemma reachable_lastMoment : Reachable lastMoment :=
  reachable_created.runAll _

end Sample

/-- The interest goes with the face that waits on it. -/
theorem patient_interest_goes_with_its_face :
    Sample.deserted.SweepsOnTime Sample.deserted.doAgeing ∧
      Sample.deserted.pending.toList = [Sample.patient] ∧
      (∀ e' ∈ Sample.deserted.doAgeing.pending.toList,
        e'.packet.request ≠ Sample.patient.packet.request) ∧
      ¬Sample.patient.lastUsed.Passed Sample.patient.lifetime Sample.deserted.clock := by
  have hnow : Sample.deserted.clock.BeforeLast := by decide
  obtain ⟨hsweeps, -⟩ := nothing_times_out_early Sample.reachable_deserted hnow
  have hpending : Sample.deserted.pending.toList = [Sample.patient] := by decide
  have hmem : Sample.patient ∈ Sample.deserted.pending.toList := by simp [hpending]
  have hgone := (hsweeps.pending Sample.patient hmem (by decide)).mpr (.inr ⟨rfl, by decide⟩)
  exact ⟨hsweeps, hpending, hgone, by decide⟩

/-- An interest with retries left goes before its lifetime is over, and at the last time there is
content goes whose timeout has not passed. -/
theorem sweep_may_drop_what_is_not_due :
    (Reachable Sample.deserted ∧ Sample.deserted.pending.toList = [Sample.patient] ∧
      Sample.patient.retries < Sample.deserted.config.maxRetransmits ∧
      Sample.deserted.clock.ms.toNat <
        Sample.patient.lastUsed.ms.toNat + Sample.patient.lifetime.toNat ∧
      Sample.deserted.doAgeing.pending.toList = []) ∧
    Reachable Sample.lastMoment ∧
      Sample.lastMoment.store.entries.toList =
        [{ packet := Sample.content 5, lastUsed := ⟨18446744073709551614⟩ }] ∧
      Sample.lastMoment.clock.ms.toNat <
        18446744073709551614 + Sample.lastMoment.config.contentTimeout.toNat ∧
      Sample.lastMoment.doAgeing.store.entries.toList = [] :=
  ⟨⟨Sample.reachable_deserted, by decide, by decide, by decide, by decide⟩,
    Sample.reachable_lastMoment, by decide, by decide, by decide⟩

end NamedRelay
