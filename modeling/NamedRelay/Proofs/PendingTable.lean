import Mathlib.Data.List.Nodup
import NamedRelay.Proofs.Request
import NamedRelay.Proofs.Steps

/-!
# The pending table along a run

No two entries of the table are for the same request, and what an entry records of its faces is
consistent. Every operation keeps this, so any number of interests for one request share one entry.
-/

namespace NamedRelay

/-- What holds of an entry on its own. -/
structure PendingInterest.Sound (limit : UInt32) (e : PendingInterest) : Prop where
  once : e.waiting.Nodup
  arrival : ∀ id, e.arrival = some id → id ∈ e.waiting
  wanted : e.waiting = [] → e.isLocal = true
  retries : e.retries ≤ limit

namespace PendingInterest.Sound

variable {limit : UInt32} {e : PendingInterest}

lemma addWaiter (h : e.Sound limit) (id : FaceId) (now : Timestamp) :
    (e.addWaiter id now).Sound limit where
  once := by
    rw [waiting_addWaiter]
    split
    · exact h.once
    · rename_i hnew
      rw [List.nodup_append]
      refine ⟨h.once, List.nodup_singleton id, ?_⟩
      intro j hj j' hj' heq
      rw [List.mem_singleton] at hj'
      subst heq
      subst hj'
      exact hnew hj
  arrival j hj := by
    rw [addWaiter_eq] at hj
    exact mem_waiting_addWaiter.mpr (.inl (h.arrival j hj))
  wanted hnone := by
    have hid : id ∈ (e.addWaiter id now).waiting := mem_waiting_addWaiter.mpr (.inr rfl)
    rw [hnone] at hid
    cases hid
  retries := by
    rw [addWaiter_eq]
    exact h.retries

lemma claimed (h : e.Sound limit) : ({ e with origin := .application } : PendingInterest).Sound
    limit where
  once := h.once
  arrival := h.arrival
  wanted _ := rfl
  retries := h.retries

lemma fromFace (limit : UInt32) (packet : Packet) (id : FaceId) (lifetime : UInt64)
    (now : Timestamp) : (PendingInterest.fromFace packet id lifetime now).Sound limit where
  once := List.nodup_singleton id
  arrival j hj := by
    cases hj
    exact List.mem_singleton_self id
  wanted hnone := by cases hnone
  retries := UInt32.zero_le

lemma fromApplication (limit : UInt32) (packet : Packet) (lifetime : UInt64) (now : Timestamp) :
    (PendingInterest.fromApplication packet lifetime now).Sound limit where
  once := List.nodup_nil
  arrival _ hj := by cases hj
  wanted _ := rfl
  retries := UInt32.zero_le

/-- An entry that somebody else wants may forget a face. -/
lemma forgetFace? (h : e.Sound limit) {id : FaceId} {e' : PendingInterest}
    (he' : e.forgetFace? id = some e') : e'.Sound limit := by
  obtain ⟨rfl, hkept⟩ := forgetFace?_eq_some.mp he'
  constructor
  · rw [waiting_withoutFace]
    exact h.once.filter _
  · -- The arrival face is forgotten with the waiter, so one that is left is another face.
    intro j hj
    simp only [withoutFace] at hj
    split at hj
    · cases hj
    · rename_i hne
      rw [waiting_withoutFace, List.mem_filter]
      refine ⟨h.arrival j hj, ?_⟩
      rw [bne_iff_ne]
      rintro rfl
      exact hne hj
  · intro hnone
    rcases (isAbandoned_eq_false_iff _).mp hkept with hwaiting | hlocal
    · exact absurd hnone hwaiting
    · exact hlocal
  · exact h.retries

/-- An entry that has not run out of retries is sent once more at most. -/
lemma age? (h : e.Sound limit) {now : Timestamp} {e' : PendingInterest}
    (he' : e.age? limit now = some e') : e'.Sound limit := by
  obtain ⟨hexpired, rfl⟩ := age?_eq_some.mp he'
  refine { once := h.once, arrival := h.arrival, wanted := h.wanted, retries := ?_ }
  simp only [isExpired, Bool.or_eq_false_iff, decide_eq_false_iff_not, UInt32.not_le] at hexpired
  -- The count is below the limit, so one more does not wrap.
  have hlt := UInt32.lt_iff_toNat_lt.mp hexpired.2
  have hmax := limit.toNat_lt
  rw [UInt32.le_iff_toNat_le, UInt32.toNat_add]
  simp only [UInt32.toNat_one]
  omega

end PendingInterest.Sound

/-- No two entries are for one request, and every entry is sound. -/
structure PendingTable.Sound (limit : UInt32) (t : PendingTable) : Prop where
  requests : t.toList.Pairwise fun e e' => e.packet.isSameInterest e'.packet = false
  entries : ∀ e ∈ t.toList, e.Sound limit

namespace PendingTable

variable {limit : UInt32} {t : PendingTable}

lemma requests_iff (t : PendingTable) :
    (t.toList.Pairwise fun e e' => e.packet.isSameInterest e'.packet = false) ↔
      (t.toList.map fun e => e.packet.request).Nodup := by
  simp only [List.Nodup, List.pairwise_map, ne_eq, ← Packet.isSameInterest_iff,
    Bool.not_eq_true]

namespace Sound

lemma nodup (h : t.Sound limit) : (t.toList.map fun e => e.packet.request).Nodup :=
  t.requests_iff.mp h.requests

/-- Entries for one request are one entry. -/
lemma eq_of_request (h : t.Sound limit) {e e' : PendingInterest} (he : e ∈ t.toList)
    (he' : e' ∈ t.toList) (hr : e.packet.request = e'.packet.request) : e = e' :=
  List.inj_on_of_nodup_map h.nodup he he' hr

lemma retain (h : t.Sound limit) {f : PendingInterest → Option PendingInterest}
    (hp : ∀ e e', f e = some e' → e'.packet = e.packet)
    (hs : ∀ e e', e.Sound limit → f e = some e' → e'.Sound limit) :
    Sound limit (t.retain f) where
  requests := by
    rw [SlotTable.toList_retain]
    refine h.requests.filterMap f ?_
    intro a a' hne b hb b' hb'
    rw [hp a b hb, hp a' b' hb']
    exact hne
  entries e' he' := by
    rw [SlotTable.toList_retain] at he'
    obtain ⟨e, he, hf⟩ := List.mem_filterMap.mp he'
    exact hs e e' (h.entries e he) hf

lemma modify (h : t.Sound limit) (hd : Handle) {f : PendingInterest → PendingInterest}
    (hp : ∀ e, (f e).packet = e.packet) (hs : ∀ e, e.Sound limit → (f e).Sound limit) :
    Sound limit (t.modify hd f) where
  requests := by
    rw [requests_iff, SlotTable.map_toList_modify]
    · exact h.nodup
    · exact fun e => congrArg Packet.request (hp e)
  entries e' he' := by
    rcases SlotTable.mem_modify he' with he | ⟨e, he, rfl⟩
    · exact h.entries e' he
    · exact hs e (h.entries e he)

/-- A request that is not in the table may be added. -/
lemma insert (h : t.Sound limit) {e : PendingInterest} (hnew : t.findSame? e.packet = none)
    (he : e.Sound limit) : Sound limit (t.insert e).2 where
  requests := by
    rw [SlotTable.toList_insert, List.pairwise_append]
    refine ⟨h.requests, List.pairwise_singleton _ e, ?_⟩
    intro old hold new hnew'
    rw [List.mem_singleton] at hnew'
    subst hnew'
    exact (SlotTable.find?_eq_none _ _).mp hnew old hold
  entries e' he' := by
    rcases SlotTable.mem_insert.mp he' with hold | rfl
    · exact h.entries e' hold
    · exact he

end Sound

end PendingTable

namespace Relay

variable {σ κ : Type}

/-- The pending table is sound for the configured number of retries. -/
def PendingSound (r : Relay σ κ) : Prop :=
  r.pending.Sound r.config.maxRetransmits

namespace PendingSound

lemma of_extends {r r' : Relay σ κ} (hs : r.PendingSound) (h : r.Extends r') :
    r'.PendingSound := by
  unfold PendingSound
  rw [h.pending, h.config]
  exact hs

lemma of_keeps {r r' : Relay σ κ} (hs : r.PendingSound) (h : r.KeepsFaces r') :
    r'.PendingSound :=
  hs.of_extends h.extends

lemma grows {r : Relay σ κ} (hs : r.PendingSound) {t : PendingTable} (hg : r.Grows t) :
    ({ r with pending := t } : Relay σ κ).PendingSound := by
  cases hg with
  | kept => exact hs
  | joined h _ =>
    refine PendingTable.Sound.modify hs h ?_ ?_
    · intro e
      rw [PendingInterest.addWaiter_eq]
    · exact fun e he => he.addWaiter _ r.clock
  | claimed h => exact PendingTable.Sound.modify hs h (fun _ => rfl) (fun e he => he.claimed)
  | opened hnew _ => exact PendingTable.Sound.insert hs hnew (.fromFace _ _ _ _ _)
  | openedOwn hnew => exact PendingTable.Sound.insert hs hnew (.fromApplication _ _ _ _)

lemma withoutSatisfied {r : Relay σ κ} (hs : r.PendingSound) (content : Packet) :
    (r.withoutSatisfied content).PendingSound := by
  refine PendingTable.Sound.retain hs ?_ ?_
  · intro e e' he
    split at he
    · cases he
    · cases he
      rfl
  · intro e e' hsound he
    split at he
    · cases he
    · cases he
      exact hsound

lemma withoutFace {r : Relay σ κ} (hs : r.PendingSound) (id : FaceId) :
    (r.withoutFace id).PendingSound := by
  refine PendingTable.Sound.retain hs ?_ (fun e e' hsound he => hsound.forgetFace? he)
  intro e e' he
  obtain ⟨rfl, -⟩ := PendingInterest.forgetFace?_eq_some.mp he
  rfl

lemma aged {r : Relay σ κ} (hs : r.PendingSound) : r.aged.PendingSound := by
  refine PendingTable.Sound.retain hs ?_ (fun e e' hsound he => hsound.age? he)
  intro e e' he
  obtain ⟨-, rfl⟩ := PendingInterest.age?_eq_some.mp he
  rfl

lemma removeFace {r : Relay σ κ} (hs : r.PendingSound) (id : FaceId) :
    (r.removeFace id).2.PendingSound := by
  by_cases hlive : r.isLive id = true
  · rw [removeFace_of_live hlive]
    exact hs.withoutFace id
  · rw [removeFace_of_not_live hlive]
    exact hs

lemma removeFaces {r : Relay σ κ} (hs : r.PendingSound) (ids : List FaceId) :
    (r.removeFaces ids).PendingSound := by
  induction ids generalizing r with
  | nil => exact hs
  | cons id ids ih => exact ih (hs.removeFace id)

lemma records {r r' : Relay σ κ} (hs : r.PendingSound) (h : r.Records r') : r'.PendingSound := by
  obtain ⟨m, t, handed, hm, hg, hk, -⟩ := h
  exact ((hs.of_keeps hm).grows hg).of_keeps hk

lemma serves {r r' : Relay σ κ} {content : Packet} (hs : r.PendingSound)
    (h : r.Serves content r') : r'.PendingSound := by
  obtain ⟨m, hm, hk, -⟩ := h
  exact ((hs.of_keeps hm).withoutSatisfied content).of_keeps hk

lemma takes {r r' : Relay σ κ} {served : Option Packet} (hs : r.PendingSound)
    (h : r.Takes served r') : r'.PendingSound := by
  cases h with
  | records hr => exact hs.records hr
  | serves hc => exact hs.serves hc

lemma effect [CacheStrategy κ] {r r' : Relay σ κ} {op : Operation σ κ} (hs : r.PendingSound)
    (h : r.Effect op r') : r'.PendingSound := by
  cases h with
  | takes ht => exact hs.takes ht
  | settles _ he => exact hs.of_extends he.1
  | removes _ _ => exact hs.withoutFace _
  | ages _ ha =>
    obtain ⟨m, ids, handed, hm, rfl, -⟩ := ha
    exact (hs.aged.of_keeps hm).removeFaces ids

end PendingSound

end Relay

lemma Reachable.pendingSound {σ κ : Type} [Scheduler σ] [CacheStrategy κ] {r : Relay σ κ}
    (h : Reachable r) : r.PendingSound := by
  induction h with
  | create config clock digest hnew =>
    unfold Relay.create at hnew
    split at hnew
    · cases hnew
    · cases hnew
      exact ⟨List.Pairwise.nil, by rintro _ ⟨⟩⟩
  | run op hr ih => exact ih.effect (Relay.effect_run hr.linked op)

end NamedRelay
